import WalletToolbox.Proofs.ConcurrentAllocation
import WalletToolbox.Proofs.OutputWrites
import WalletToolbox.Language.Numerals

/-! Allocators interleaved with updates of one output. An update reads the entity row
twice and writes what it read back, first to the row and then to the primary record.
A reservation that commits between a read and its write is undone by the write; one
that commits anywhere else stays. -/

namespace WalletToolbox
open Async

inductive OutputCall where
  | allocate (args : AllocateArgs)
  | update (changes : OutputUpdate)

inductive OutputReply where
  | allocated (output : Option TableOutput)
  | updated (count : Nat)
deriving DecidableEq

def OutputCall.program (hash : ScriptHash) (outputId : Nat) : OutputCall → RocksDbM OutputReply
  | .allocate args => do return .allocated (← args.program)
  | .update changes => do return .updated (← StorageRocksDb.updateOutput hash outputId changes)

/-- The row of the output has been found and nothing written since. -/
def readOpen (outputId : Nat) (past : List (Event rocksDb)) : Bool :=
  past.foldl (fun opened event => match event with
    | ⟨.get (.entity .outputs (.id id)), some _⟩ => if id = outputId then true else opened
    | ⟨.put _ _, _⟩ => false
    | _ => opened) false

def HoldsRow (outputId : Nat) (changes : OutputUpdate) (past : List (Event rocksDb)) : Prop :=
  readOpen outputId (if changes.outputId.getD outputId = outputId then past else past.tail) = true

def LockHeld (outputId transactionId : Nat) (database : Database) : Prop :=
  Locked outputId transactionId database.records ∧ Keyed database.records

section
variable {hash : ScriptHash} {outputId transactionId : Nat} {database : Database}

theorem Reads.keeps {inv : Database → Prop} (op : DbOp) (database) (reads : Reads op) (holds : inv database) :
    inv (exec hash op database).2 := by
  rw [reads.exec_eq]
  exact holds

theorem Locked.frame (locked : Locked outputId transactionId before)
    (primary : after.primary outputId = before.primary outputId)
    (entity : after.row .outputs (.id outputId) = before.row .outputs (.id outputId)) : Locked outputId transactionId after :=
  ⟨primary ▸ locked.primary, entity ▸ locked.entity⟩

theorem IndexOp.keeps {op} (allowed : IndexOp op) (held : LockHeld outputId transactionId database) :
    LockHeld outputId transactionId (exec hash op database).2 := by
  obtain ⟨locked, keyed⟩ := held
  refine ⟨locked.frame (allowed.exec_lookup database (by simp)) (allowed.exec_lookup database (by simp)), ?_⟩
  exact fun id record stored => keyed id record ((allowed.exec_lookup database (by simp)).symm.trans stored)

theorem putPrimary_keyed (keyed : Keyed database.records) :
    Keyed (exec hash (.put (.outputPrimary next.outputId) ⟨next, version⟩) database).2.records := by
  intro id record stored
  by_cases here : id = next.outputId
  · subst here
    obtain rfl := Option.some.inj ((exec_put_lookup hash database _).symm.trans stored)
    rfl
  · exact keyed id record ((exec_put_lookup_ne hash database _ _ (by simpa using here)).symm.trans stored)

theorem putPrimary_keeps
    (locks : next.outputId = outputId → next.spendable = false ∧ next.spentBy = some transactionId)
    (held : LockHeld outputId transactionId database) :
    LockHeld outputId transactionId (exec hash (.put (.outputPrimary next.outputId) ⟨next, version⟩) database).2 := by
  obtain ⟨locked, keyed⟩ := held
  refine ⟨⟨?_, ?_⟩, putPrimary_keyed keyed⟩
  · by_cases here : outputId = next.outputId
    · subst here
      exact ⟨_, exec_put_lookup hash database _, locks rfl⟩
    · rw [Records.primary, exec_put_lookup_ne hash database _ _ (by simpa using here)]
      exact locked.primary
  · rw [Records.row, exec_put_lookup_ne hash database _ _ (by simp)]
    exact locked.entity

theorem putRow_keeps
    (locks : key = .id outputId → row.value.spendable = false ∧ row.value.spentBy = some transactionId)
    (held : LockHeld outputId transactionId database) :
    LockHeld outputId transactionId (exec hash (.put (.entity .outputs key) row) database).2 := by
  obtain ⟨locked, keyed⟩ := held
  refine ⟨⟨?_, ?_⟩, fun id record stored => ?_⟩
  · rw [Records.primary, exec_put_lookup_ne hash database _ _ (by simp)]
    exact locked.primary
  · by_cases here : key = .id outputId
    · subst here
      exact ⟨row, exec_put_lookup hash database _, locks rfl⟩
    · rw [Records.row, exec_put_lookup_ne hash database _ _ (by simpa [eq_comm] using here)]
      exact locked.entity
  · exact keyed id record ((exec_put_lookup_ne hash database _ _ (by simp)).symm.trans stored)

theorem OutputWriteOp.keeps {next} (op : DbOp) (database : Database) (allowed : OutputWriteOp next op)
    (locks : next.outputId = outputId → next.spendable = false ∧ next.spentBy = some transactionId)
    (held : LockHeld outputId transactionId database) : LockHeld outputId transactionId (exec hash op database).2 := by
  cases allowed with
  | read reads => exact (IndexOp.read reads).keeps held
  | unindex key => exact (IndexOp.unindex key).keeps held
  | index key record => exact (IndexOp.index key record).keeps held
  | primary version => exact putPrimary_keeps locks held

def RowLocks (outputId transactionId : Nat) (row : TableOutput) : Prop :=
  row.outputId = outputId → row.spendable = false ∧ row.spentBy = some transactionId

namespace StorageRocksDb

theorem storeRow_keeps (updated : Nat) (locks : RowLocks outputId transactionId row) :
    (storeRow hash updated (some row)).Keeps (exec hash) (LockHeld outputId transactionId) fun _ => True := by
  refine .bind (((validateOutputScript_settles [] row).keeps (validateOutputScript_uses row) Reads.keeps).weaken
    fun outcome script => ?_)
  match outcome with
  | .error error => trivial
  | .ok validated =>
    obtain ⟨lockingScript, rfl⟩ := script validated rfl
    refine (transactionStatusForOutput_uses _).keeps_seq Reads.keeps (fun status => ?_) fun _ => trivial
    refine (RocksDbWalletStore.putOutput_uses hash _ status).keeps_seq (fun op database allowed => ?_)
      (fun _ => trivial) fun _ => trivial
    exact OutputWriteOp.keeps op database allowed (by simpa [RowLocks] using locks)

theorem reindexUpdated_keeps (updated : Nat) :
    (reindexUpdated hash outputId updated).Keeps (exec hash) (LockHeld outputId transactionId) fun _ => True := by
  intro database held
  refine ⟨held, ?_⟩
  obtain ⟨record, stored, locks⟩ := held.1.entity
  show (storeRow hash updated (((database.records.row .outputs (.id outputId)).map Versioned.value).filter _)).Keeps _ _ _
  rw [stored]
  simp only [Option.map_some, Option.filter_some]
  split
  · exact storeRow_keeps updated fun _ => locks
  · trivial

theorem storeUpdated_keeps
    (locks : rowKey .outputs ((changes.applyScriptMetadata hash).spread existing) = .id outputId →
      ((changes.applyScriptMetadata hash).spread existing).spendable = false ∧
        ((changes.applyScriptMetadata hash).spread existing).spentBy = some transactionId) :
    (storeUpdated hash outputId changes (some existing)).Keeps (exec hash) (LockHeld outputId transactionId) fun _ => True :=
  fun _ held => ⟨held, fun _ held => ⟨putRow_keeps locks held, reindexUpdated_keeps 1⟩⟩

theorem updateOutput_keeps (keeps : changes.KeepsReservation) :
    (updateOutput hash outputId changes).Keeps (exec hash) (LockHeld outputId transactionId) fun _ => True := by
  rw [updateOutput_eq]
  intro database held
  refine ⟨held, ?_⟩
  obtain ⟨record, stored, locks⟩ := held.1.entity
  show (storeUpdated hash outputId changes ((database.records.row .outputs (.id outputId)).map Versioned.value)).Keeps _ _ _
  rw [stored]
  refine storeUpdated_keeps fun _ => ?_
  obtain ⟨noSpendable, noSpentBy⟩ := keeps.applyScriptMetadata hash
  simpa only [OutputUpdate.spread, noSpendable, noSpentBy, Option.getD_none] using locks

end StorageRocksDb

def Undisturbed {α : Type} (hash : ScriptHash) (outputId : Nat) (changes : OutputUpdate) (past : List (Event rocksDb))
    (point : RocksDbM α) : Prop :=
  (point.outcome = none → ¬ HoldsRow outputId changes past) →
    ∀ transactionId, point.Keeps (exec hash) (LockHeld outputId transactionId) fun _ => True

section
open RocksDbWalletStore (Quiet existingDeletes_uses)
variable {changes : OutputUpdate} {past : List (Event rocksDb)} {α β : Type}

theorem undisturbed_keeps {point : RocksDbM α}
    (keeps : ∀ transactionId, point.Keeps (exec hash) (LockHeld outputId transactionId) fun _ => True) :
    Undisturbed hash outputId changes past point := fun _ => keeps

theorem undisturbed_holds (holds : HoldsRow outputId changes past) :
    Undisturbed hash outputId changes past (.await op next) := fun free => (free rfl holds).elim

theorem index_always {program : RocksDbM α} (uses : program.Uses IndexOp) :
    program.Always (exec hash) (fun _ => True) (Undisturbed hash outputId changes) past :=
  uses.always (fun _ _ uses => undisturbed_keeps fun _ => uses.keeps fun _ _ allowed => allowed.keeps) past

theorem HoldsRow.quiet {event} (holds : HoldsRow outputId changes past) (quiet : Quiet event.op) :
    HoldsRow outputId changes (past ++ [event]) := by
  have step {seen : List (Event rocksDb)} (found : readOpen outputId seen = true) : readOpen outputId (seen ++ [event]) = true := by
    rw [readOpen, List.foldl_append]
    rw [readOpen] at found
    rw [found]
    obtain ⟨op, reply⟩ := event
    cases quiet with
    | read reads => cases op <;> first | exact reads.elim | simp only [List.foldl_cons, List.foldl_nil] <;> split <;> simp_all
    | unindex key => rfl
  unfold HoldsRow at holds ⊢
  split
  · next same => rw [if_pos same] at holds; exact step holds
  · next other =>
    rw [if_neg other] at holds
    cases past with
    | nil => cases holds
    | cons first rest => exact step holds

theorem quiet_always {next : β → RocksDbM α} (uses : first.Uses Quiet)
    (holds : HoldsRow outputId changes past)
    (rest : ∀ value more, HoldsRow outputId changes more →
      (next value).Always (exec hash) (fun _ => True) (Undisturbed hash outputId changes) more) :
    (first >>= next).Always (exec hash) (fun _ => True) (Undisturbed hash outputId changes) past := by
  induction first generalizing past with
  | done value => exact rest value past holds
  | fail error => exact undisturbed_keeps fun _ => trivial
  | await op more ih => exact ⟨undisturbed_holds holds, fun _ _ => ih _ (uses.2 _) (holds.quiet uses.1)⟩

namespace RocksDbWalletStore

theorem putOutput_always (output : TableOutput) (status : Option TransactionStatus) (holds : HoldsRow outputId changes past) (value : α) :
    (putOutput hash output status >>= fun _ => .done value).Always (exec hash) (fun _ => True) (Undisturbed hash outputId changes) past := by
  unfold putOutput
  split
  · exact undisturbed_keeps fun _ => trivial
  rw [bind_assoc]
  refine quiet_always ((getPrimary_uses _).mono fun _ => .read) holds fun existing past holds => ?_
  cases built : putOutputWrites hash output status existing with
  | error error => exact undisturbed_keeps fun _ => trivial
  | ok writes =>
    obtain ⟨deletes, puts, deleted, filled, rfl⟩ := putOutputWrites_ok built
    show (batch _ >>= fun _ => .done value).Always _ _ _ _
    rw [batch_append, bind_assoc]
    refine quiet_always (existingDeletes_uses deleted) holds fun _ past holds => ?_
    -- the put of the primary record is the last point that holds the row
    refine ⟨undisturbed_holds holds, fun _ _ => ⟨undisturbed_holds (holds.quiet (.read trivial)), fun _ _ => ?_⟩⟩
    exact index_always ((indexBatch_uses fun _ => indexPuts_key filled).bind fun _ => trivial)

end RocksDbWalletStore

namespace StorageRocksDb

theorem storeRow_always (updated : Nat) (row) (holds : HoldsRow outputId changes past) :
    (storeRow hash updated (some row)).Always (exec hash) (fun _ => True) (Undisturbed hash outputId changes) past := by
  refine quiet_always ((validateOutputScript_uses row).mono fun _ => .read) holds fun output past holds => ?_
  refine quiet_always ((transactionStatusForOutput_uses output).mono fun _ => .read) holds fun status past holds => ?_
  exact RocksDbWalletStore.putOutput_always output status holds updated

theorem holdsRow_found (started : past ≠ []) (record : Versioned TableOutput) :
    HoldsRow outputId changes (past ++ [⟨.get (.entity .outputs (.id outputId)), some record⟩]) := by
  have found (seen : List (Event rocksDb)) :
      readOpen outputId (seen ++ [⟨.get (.entity .outputs (.id outputId)), some record⟩]) = true := by
    simp [readOpen]
  unfold HoldsRow
  split
  · exact found past
  · rw [List.tail_append_of_ne_nil started]
    exact found _

theorem reindexUpdated_always (updated : Nat) (started : past ≠ []) :
    (reindexUpdated hash outputId updated).Always (exec hash) (fun _ => True) (Undisturbed hash outputId changes) past := by
  refine ⟨undisturbed_keeps fun _ => reindexUpdated_keeps updated, fun database _ => ?_⟩
  cases stored : database.records.row .outputs (.id outputId) with
  | none =>
    have reply : (exec hash (.get (.entity .outputs (.id outputId))) database).1 = none := stored
    rw [reply]
    exact undisturbed_keeps fun _ => trivial
  | some record =>
    have reply : (exec hash (.get (.entity .outputs (.id outputId))) database).1 = some record := stored
    rw [reply]
    simp only [Option.map_some, Option.filter_some]
    split
    · exact storeRow_always updated record.value (holdsRow_found started record)
    · exact undisturbed_keeps fun _ => trivial

theorem updateOutput_always (keeps : changes.KeepsReservation) :
    (updateOutput hash outputId changes).Always (exec hash) (fun _ => True) (Undisturbed hash outputId changes) [] := by
  rw [updateOutput_eq]
  refine ⟨undisturbed_keeps fun _ => updateOutput_eq hash outputId changes ▸ updateOutput_keeps keeps, fun database _ => ?_⟩
  cases stored : database.records.row .outputs (.id outputId) with
  | none =>
    have reply : (exec hash (.get (.entity .outputs (.id outputId))) database).1 = none := stored
    rw [reply]
    exact reindexUpdated_always 0 (by simp)
  | some record =>
    have reply : (exec hash (.get (.entity .outputs (.id outputId))) database).1 = some record := stored
    rw [reply]
    by_cases names : changes.outputId.getD outputId = outputId
    · have holds : HoldsRow outputId changes ([] ++ [⟨.get (.entity .outputs (.id outputId)), some record⟩]) := by
        simp [HoldsRow, if_pos names, readOpen]
      exact ⟨undisturbed_holds holds, fun _ _ => ⟨undisturbed_holds (holds.quiet (.read trivial)), fun _ _ =>
        reindexUpdated_always 1 (by simp)⟩⟩
    · have elsewhere : rowKey .outputs ((changes.applyScriptMetadata hash).spread record.value) ≠ .id outputId := by
        cases named : changes.outputId with
        | none => simp [named] at names
        | some other => simpa [rowKey, OutputUpdate.spread, named] using names
      refine ⟨undisturbed_keeps fun _ => storeUpdated_keeps fun same => (elsewhere same).elim, fun _ _ => ⟨?_, fun _ _ =>
        reindexUpdated_always 1 (by simp)⟩⟩
      exact undisturbed_keeps fun _ _ held => ⟨putRow_keeps (fun same => (elsewhere same).elim) held, reindexUpdated_keeps 1⟩

end StorageRocksDb
end

end
inductive KeyedOp : DbOp → Prop
  | read {op : DbOp} (reads : Reads op) : KeyedOp op
  | output {next : TableOutput} {op : DbOp} (allowed : OutputWriteOp next op) : KeyedOp op
  | row (table : EntityTable) (key : RowKey) (record : Versioned (Row table)) : KeyedOp (.put (.entity table key) record)
  | reserve (reservation : Reservation) : KeyedOp (.reserve reservation)

section
variable {hash : ScriptHash} {outputId transactionId : Nat} {database : Database}

theorem KeyedOp.keeps (op : DbOp) (database) (allowed : KeyedOp op) (keyed : Keyed database.records) :
    Keyed (exec hash op database).2.records := by
  cases allowed with
  | read reads =>
    rw [reads.exec_eq]
    exact keyed
  | row table key record =>
    exact fun id stored found => keyed id stored ((exec_put_lookup_ne hash database (.entity table key) record (by simp)).symm.trans found)
  | reserve reservation =>
    obtain ⟨output, after, result, commits⟩ | ⟨reply, -, result⟩ := reserve_commits hash keyed reservation
    · exact result ▸ commits.keyed
    · exact result ▸ keyed
  | output allowed =>
    cases allowed with
    | read reads =>
      rw [reads.exec_eq]
      exact keyed
    | unindex key =>
      exact fun id stored found => keyed id stored ((exec_remove_lookup_ne hash database _ (by simp)).symm.trans found)
    | index key record =>
      exact fun id stored found => keyed id stored ((exec_put_lookup_ne hash database _ _ (by simp)).symm.trans found)
    | primary version => exact putPrimary_keyed keyed

theorem AllocatorOp.keyedOp (allowed : AllocatorOp transactionId op) : KeyedOp op := by
  cases op with
  | reserve reservation => exact .reserve reservation
  | get | scan | getRange => exact .read trivial
  | put | remove | nextId => exact allowed.elim

namespace StorageRocksDb

theorem reindexUpdated_uses (updated : Nat) : (reindexUpdated hash outputId updated).Uses KeyedOp := by
  refine ⟨.read trivial, fun record => ?_⟩
  dsimp only
  cases (record.map Versioned.value).filter (matchesOutputPartial · { outputId := some outputId }) with
  | none => trivial
  | some row =>
    refine ((validateOutputScript_uses row).mono fun _ => .read).bind fun output => ?_
    refine ((transactionStatusForOutput_uses output).mono fun _ => .read).bind fun status => ?_
    exact ((RocksDbWalletStore.putOutput_uses hash output status).mono fun _ => .output).bind fun _ => trivial

theorem updateOutput_uses (changes) : (updateOutput hash outputId changes).Uses KeyedOp := by
  rw [updateOutput_eq]
  refine ⟨.read trivial, fun record => ?_⟩
  cases record with
  | none => exact reindexUpdated_uses 0
  | some record => exact ⟨.read trivial, fun _ => ⟨.row .outputs _ _, fun _ => reindexUpdated_uses 1⟩⟩

end StorageRocksDb

def CallOp (call : OutputCall) (op : DbOp) : Prop :=
  KeyedOp op ∧ ∀ args, call = .allocate args → AllocatorOp args.transactionId op

theorem call_uses (hash) (outputId : Nat) (call : OutputCall) : (call.program hash outputId).Uses (CallOp call) := by
  cases call with
  | allocate args =>
    refine ((allocateChangeInput_uses args).mono fun op allowed => ⟨allowed.keyedOp, ?_⟩).bind fun _ => trivial
    rintro _ ⟨⟩
    exact allowed
  | update changes => exact ((StorageRocksDb.updateOutput_uses changes).mono fun op allowed => ⟨allowed, fun _ same => by cases same⟩).bind fun _ => trivial

def CallUndisturbed (hash : ScriptHash) (outputId : Nat) (call : OutputCall) (past : List (Event rocksDb))
    (point : RocksDbM OutputReply) : Prop :=
  ∀ changes, call = .update changes → Undisturbed hash outputId changes past point

theorem call_always (hash : ScriptHash) (outputId : Nat) {call : OutputCall} (keeps : ∀ changes, call = .update changes → changes.KeepsReservation) :
    (call.program hash outputId).Always (exec hash) (fun _ => True) (CallUndisturbed hash outputId call) [] := by
  cases call with
  | allocate args => exact (call_uses hash outputId (.allocate args)).always (fun _ _ _ _ same => by cases same) []
  | update changes =>
    refine .bind ((StorageRocksDb.updateOutput_always (keeps changes rfl)).mono fun past point undisturbed => ?_)
    match point with
    | .done count => rintro _ ⟨⟩; exact undisturbed_keeps fun _ => trivial
    | .fail error => rintro _ ⟨⟩; exact undisturbed_keeps fun _ => trivial
    | .await op rest =>
      rintro _ ⟨⟩ free transactionId
      have keeps := undisturbed (fun _ => free rfl) transactionId
      refine Program.Keeps.bind (keeps.weaken fun outcome _ => ?_)
      match outcome with
      | .ok count => trivial
      | .error error => trivial

end

abbrev CallPool (ι : Type) := Pool rocksDb WalletError OutputReply Database ι

def startCalls {ι : Type} (hash : ScriptHash) (outputId : Nat) (calls : ι → OutputCall) (database : Database) : CallPool ι :=
  .start database fun caller => (calls caller).program hash outputId

section
variable {ι : Type} (hash : ScriptHash) (outputId : Nat) (calls : ι → OutputCall)

def CommitsReservation (pool : CallPool ι) (caller : ι) : Prop :=
  ∃ transactionId op next, (pool.task caller).program = .await op next ∧
    Reserves transactionId outputId ⟨op, (exec hash op pool.store).1⟩

def OutsideUpdates (pool : CallPool ι) (caller : ι) : Prop :=
  CommitsReservation hash outputId pool caller → ∀ other changes, calls other = .update changes →
    (pool.task other).program.outcome = none → ¬ HoldsRow outputId changes (pool.task other).past

def Holds (pool : CallPool ι) (caller : ι) (args : AllocateArgs) : Prop :=
  calls caller = .allocate args ∧ ∃ event ∈ (pool.task caller).past, Reserves args.transactionId outputId event

structure Kept (pool : CallPool ι) : Prop where
  locked : ∀ caller args, Holds outputId calls pool caller args → LockHeld outputId args.transactionId pool.store ∧
    ∀ other, (pool.task other).program.Keeps (exec hash) (LockHeld outputId args.transactionId) fun _ => True
  once : ∀ caller other args others, Holds outputId calls pool caller args → Holds outputId calls pool other others → caller = other

end

section
variable {ι : Type} [DecidableEq ι] {hash : ScriptHash} {outputId : Nat} {calls : ι → OutputCall} {database : Database}
  {pool after : CallPool ι} {caller : ι}

theorem holds_advance {next : op.Reply → RocksDbM OutputReply}
    (tasks : after.task = Function.update pool.task caller
      ⟨(pool.task caller).past ++ [⟨op, (exec hash op pool.store).1⟩], next (exec hash op pool.store).1⟩) (holds : Holds outputId calls after other args) : Holds outputId calls pool other args ∨
      other = caller ∧ Reserves args.transactionId outputId ⟨op, (exec hash op pool.store).1⟩ := by
  obtain ⟨allocates, event, member, reserves⟩ := holds
  rw [tasks] at member
  by_cases same : other = caller
  · subst same
    simp only [Function.update_self, List.mem_append, List.mem_singleton] at member
    obtain before | rfl := member
    · exact .inl ⟨allocates, event, before, reserves⟩
    · exact .inr ⟨rfl, reserves⟩
  · rw [Function.update_of_ne same] at member
    exact .inl ⟨allocates, event, member, reserves⟩

theorem allocatorOp_keeps (op : DbOp) (database)
    (allowed : CallOp (.allocate args) op) (held : LockHeld outputId transactionId database) :
    LockHeld outputId transactionId (exec hash op database).2 := by
  obtain ⟨output, -, commits⟩ | ⟨-, unchanged⟩ := allocatorOp_cases hash (allowed.2 args rfl) held.2
  · exact ⟨commits.keeps_locked held.1, commits.keyed⟩
  · exact unchanged.symm ▸ held

theorem Kept.advance (kept : Kept hash outputId calls pool) (keyed : Keyed pool.store.records)
    (uses : ∀ other, (pool.task other).program.Uses (CallOp (calls other)))
    (undisturbed : ∀ other, CallUndisturbed hash outputId (calls other) (pool.task other).past (pool.task other).program)
    (outside : OutsideUpdates hash outputId calls pool caller) (moves : pool.advance (exec hash) caller = some after) :
    Kept hash outputId calls after := by
  obtain ⟨op, next, awaiting, store, tasks⟩ := Pool.advance_cases moves
  by_cases commits : CommitsReservation hash outputId pool caller
  · obtain ⟨transactionId, _, _, same, reserves⟩ := commits
    obtain ⟨rfl, rfl⟩ := Program.await.inj (awaiting.symm.trans same)
    obtain ⟨output, rfl, commits⟩ := reserves.commits keyed
    have only {other args} (holds : Holds output.outputId calls after other args) :
        other = caller ∧ args.transactionId = transactionId := by
      obtain before | ⟨rfl, again⟩ := holds_advance tasks holds
      · exact ((kept.locked other args before).1.1.not_free commits.free).elim
      · obtain ⟨_, _, shape, rfl, -⟩ := reserves
        obtain ⟨_, _, other, same, -⟩ := again
        rw [shape] at other
        cases other
        exact ⟨rfl, same.symm⟩
    refine ⟨fun other args holds => ?_, fun first second args others holdsFirst holdsSecond =>
      (only holdsFirst).1.trans (only holdsSecond).1.symm⟩
    obtain ⟨rfl, named⟩ := only holds
    rw [named, store]
    refine ⟨⟨commits.locked, commits.keyed⟩, fun task => ?_⟩
    rw [tasks]
    by_cases stepped : task = other
    · subst stepped
      simp only [Function.update_self]
      have rest := uses task
      rw [holds.1, awaiting] at rest
      exact (rest.2 _).keeps allocatorOp_keeps
    · simp only [Function.update_of_ne stepped]
      cases called : calls task with
      | allocate asked => exact (called ▸ uses task).keeps allocatorOp_keeps
      | update changes =>
        refine undisturbed task changes called (fun running => ?_) transactionId
        exact outside ⟨transactionId, op, next, awaiting, reserves⟩ task changes called running
  · have before {other args} (holds : Holds outputId calls after other args) : Holds outputId calls pool other args := by
      obtain before | ⟨rfl, reserves⟩ := holds_advance tasks holds
      · exact before
      · exact (commits ⟨_, op, next, awaiting, reserves⟩).elim
    refine ⟨fun other args holds => ?_, fun first second args others holdsFirst holdsSecond =>
      kept.once first second args others (before holdsFirst) (before holdsSecond)⟩
    obtain ⟨held, keeps⟩ := kept.locked other args (before holds)
    exact Pool.advance_keeps held keeps moves

theorem kept_reaches (keyed : Keyed database.records)
    (keeps : ∀ caller changes, calls caller = .update changes → changes.KeepsReservation)
    (reached : Pool.Reaches (exec hash) (OutsideUpdates hash outputId calls) (startCalls hash outputId calls database) pool) :
    Kept hash outputId calls pool := by
  have none (caller : ι) (args : AllocateArgs) : ¬ Holds outputId calls (startCalls hash outputId calls database) caller args := by
    rintro ⟨-, event, member, -⟩
    cases member
  refine Pool.Reaches.invariant ⟨fun caller args holds => (none caller args holds).elim,
    fun caller _ args _ holds => (none caller args holds).elim⟩ (fun before caller after earlier kept outside moves => ?_) reached
  have uses := Pool.Reaches.uses (fun caller => call_uses hash outputId (calls caller)) earlier
  have always := Pool.Reaches.always (fun caller => call_always hash outputId (keeps caller))
    (fun _ _ => trivial) earlier
  have filed := Pool.Reaches.keeps keyed
    (fun caller => (call_uses hash outputId (calls caller)).keeps fun op database allowed =>
      KeyedOp.keeps op database allowed.1) earlier
  exact kept.advance filed.1 uses (fun other => (always other).now) outside moves

/-- What the reservation of an output promises: both copies stay spent by the
transaction, and no other allocator returns the output. -/
def ReservationKept {ι : Type} (outputId : Nat) (calls : ι → OutputCall) (pool : CallPool ι) : Prop :=
  ∀ caller args output, calls caller = .allocate args →
    (pool.task caller).program = .done (.allocated (some output)) → output.outputId = outputId →
    Locked outputId args.transactionId pool.store.records ∧
    ∀ other others taken, calls other = .allocate others →
      (pool.task other).program = .done (.allocated (some taken)) → taken.outputId = outputId → other = caller

def CallReturns (call : OutputCall) (past : List (Event rocksDb)) (outcome : Except WalletError OutputReply) : Prop :=
  ∀ args output, call = .allocate args → outcome = .ok (.allocated (some output)) →
    ∃ event ∈ past, Reserves args.transactionId output.outputId event

theorem call_settles (hash) (outputId : Nat) (call : OutputCall) (past : List (Event rocksDb)) :
    (call.program hash outputId).Settles (CallReturns call) past := by
  cases call with
  | update changes =>
    refine (Program.settles_trivial _ past).mono fun _ _ _ _ => ?_
    rintro _ _ ⟨⟩
  | allocate asked =>
    refine .bind ((allocateChangeInput_settles past asked).mono fun more outcome _ returns => ?_)
    match outcome with
    | .error error => rintro _ _ - ⟨⟩
    | .ok found =>
      rintro _ output ⟨⟩ ⟨⟩
      exact returns output rfl

theorem holds_of_returned
    (reached : Pool.Reaches (exec hash) allowed (startCalls hash outputId calls database) pool) (allocates : calls caller = .allocate args)
    (returned : (pool.task caller).program = .done (.allocated (some output))) (same : output.outputId = outputId) :
    Holds outputId calls pool caller args := by
  have settles := Pool.Reaches.settles (fun caller => call_settles hash outputId (calls caller) []) reached caller
  rw [returned] at settles
  exact ⟨allocates, same ▸ settles args output allocates rfl⟩

/-- A reservation is kept in every run in which none commits while an update holds
the row of the output. -/
theorem updateOutput_keeps_reservation (keyed : Keyed database.records)
    (keeps : ∀ caller changes, calls caller = .update changes → changes.KeepsReservation)
    (reached : Pool.Reaches (exec hash) (OutsideUpdates hash outputId calls) (startCalls hash outputId calls database) pool) :
    ReservationKept outputId calls pool := by
  have kept := kept_reaches keyed keeps reached
  intro caller args output allocates returned same
  have holds := holds_of_returned reached allocates returned same
  refine ⟨(kept.locked caller args holds).1.1, fun other others taken otherAllocates otherReturned otherSame => ?_⟩
  exact kept.once other caller others args (holds_of_returned reached otherAllocates otherReturned otherSame) holds

end
def overlappingCalls : Fin 3 → OutputCall
  | 0 => .allocate ⟨1, 1, 500, none, true, 7⟩
  | 1 => .update { sequenceNumber := some (some 0) }
  | 2 => .allocate ⟨1, 1, 500, none, true, 8⟩

def reservedOutput (transactionId : Nat) (sequenceNumber : Option Nat) : TableOutput :=
  { changeOutput with spendable := false, spentBy := some transactionId, sequenceNumber }

/-- The update reads the row, the reservation commits, and the update writes the free
row back over it: the output is given out again. -/
theorem updateOutput_loses_reservation :
    ∃ pool, Pool.Reaches (exec noHash) Pool.anyStep (startCalls noHash 1 overlappingCalls fundedStore) pool ∧
      (pool.task 0).program = .done (.allocated (some (reservedOutput 7 none))) ∧ (pool.task 1).program = .done (.updated 1) ∧
      ¬ ReservationKept 1 overlappingCalls pool := by
  have runs : ((startCalls noHash 1 overlappingCalls fundedStore).follow (exec noHash)
      ([1] ++ List.replicate 7 0 ++ List.replicate 21 1 ++ List.replicate 7 2)).map
      (fun pool => ((pool.task 0).program.outcome, (pool.task 1).program.outcome, (pool.task 2).program.outcome)) =
      some (some (.ok (.allocated (some (reservedOutput 7 none)))), some (.ok (.updated 1)),
        some (.ok (.allocated (some (reservedOutput 8 (some 0)))))) := by decide +kernel
  obtain ⟨pool, followed, settled⟩ := Option.map_eq_some_iff.mp runs
  simp only [Prod.mk.injEq, Program.outcome_ok] at settled
  obtain ⟨first, update, second⟩ := settled
  refine ⟨pool, Pool.reaches_follow followed, first, update, fun kept => ?_⟩
  cases (kept 0 _ _ rfl first rfl).2 2 _ _ rfl second rfl

def updateOver (pool : CallPool (Fin 3)) (caller : Fin 3) : Bool :=
  (pool.task 1).program.outcome.isSome || match (pool.task caller).program with
    | .await (.reserve _) _ => false
    | _ => true

theorem updateOver_outside (pool) (caller) (settled : updateOver pool caller = true) :
    OutsideUpdates noHash 1 overlappingCalls pool caller := by
  rintro ⟨transactionId, op, next, awaiting, reservation, output, shape, -⟩ other changes updates running
  cases op with
  | reserve pending =>
    rw [updateOver, awaiting, Bool.or_false] at settled
    match other with
    | 0 | 2 => cases updates
    | 1 => exact absurd running (Option.isSome_iff_ne_none.mp settled)
  | get | put | remove | scan | getRange | nextId => cases shape

theorem updateOutput_keeps_reservation_apart :
    ∃ pool, Pool.Reaches (exec noHash) (OutsideUpdates noHash 1 overlappingCalls)
        (startCalls noHash 1 overlappingCalls fundedStore) pool ∧
      (pool.task 0).program = .done (.allocated (some (reservedOutput 7 (some 0)))) ∧ ReservationKept 1 overlappingCalls pool := by
  have runs : ((startCalls noHash 1 overlappingCalls fundedStore).followWhile (exec noHash) updateOver
      (List.replicate 4 0 ++ List.replicate 26 1 ++ List.replicate 3 0)).map (fun pool => (pool.task 0).program.outcome) =
      some (some (.ok (.allocated (some (reservedOutput 7 (some 0)))))) := by decide +kernel
  obtain ⟨pool, followed, settled⟩ := Option.map_eq_some_iff.mp runs
  have reached := Pool.reaches_followWhile updateOver_outside followed
  refine ⟨pool, reached, Program.outcome_ok.mp settled, updateOutput_keeps_reservation (by decide +kernel) ?_ reached⟩
  intro caller changes updates
  match caller with
  | 0 | 2 => cases updates
  | 1 => cases updates; exact ⟨rfl, rfl⟩

end WalletToolbox

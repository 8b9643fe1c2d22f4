import WalletToolbox.Proofs.NaturalCalls
import WalletToolbox.Proofs.ConcurrentAllocation

/-! Calls of one store that find or insert rows by their natural keys, interleaved at
every await. No natural key is ever stored twice, and calls for one key resolve to one
id, as long as nobody puts a row into another call's window: between the search of the
call that found nothing and its put. -/

namespace WalletToolbox
open Async

section
variable {hash : ScriptHash} {storageIdentityKey : String} {database : Database}

def Obtains (call : NaturalCall) (more : List (Event rocksDb)) (outcome : Except WalletError Nat) (_ : Database) : Prop :=
  ∀ key id, call.search = some key → outcome = .ok id → (progress call.search more).obtained = some (.id id)

theorem holding_obtains {row : α → Row table} {id : α → Nat}
    {method : RocksDbM α} (searches : call.search = some key)
    (named : ∀ value, rowKey table (row value) = .id (id value))
    (guarded : method.Guarded (exec hash) (naturalContract (some key)) (GotHold (some key) table row) past database) :
    (method >>= fun value => (.done (id value) : RocksDbM Nat)).Guarded (exec hash) (naturalContract call.search) (Obtains call) past database := by
  rw [searches]
  refine Program.Guarded.bind (guarded.mono fun more outcome after ends => ?_)
  cases outcome with
  | ok value =>
    intro other found _ same
    cases same
    rw [searches, ends value rfl, named]
  | error error =>
    intro other found _ failed
    cases failed

theorem insert_guarded (tx) (past) :
    (NaturalCall.program hash storageIdentityKey (.insertTransaction tx)).Guarded (exec hash) (naturalContract none)
      (Obtains (.insertTransaction tx)) past database := by
  show (StorageRocksDb.perform hash (StorageCall.insert .transactions tx).await >>= _).Guarded _ _ _ _ _
  rw [StorageRocksDb.perform_await]
  have inserts : (StorageRocksDb.insertEntity .transactions tx).Guarded (exec hash) (naturalContract none) _ past database :=
    insertEntity_guarded fun taken => by cases taken
  refine Program.Guarded.bind (inserts.mono fun more outcome after ends => ?_)
  obtain ⟨row, rfl, -⟩ := ends
  intro key id searches
  cases searches

theorem naturalCall_guarded (call : NaturalCall) (past) :
    (call.program hash storageIdentityKey).Guarded (exec hash) (naturalContract call.search) (Obtains call) past database := by
  cases call with
  | user identityKey => exact holding_obtains rfl (fun _ => rfl) (findOrInsertUser_guarded storageIdentityKey identityKey)
  | outputBasket userId name => exact holding_obtains rfl (fun _ => rfl) (findOrInsertOutputBasket_guarded userId name)
  | outputTag userId tag => exact holding_obtains rfl (fun _ => rfl) (findOrInsertOutputTag_guarded userId tag)
  | txLabel userId label => exact holding_obtains rfl (fun _ => rfl) (findOrInsertTxLabel_guarded userId label)
  | insertTransaction tx => exact insert_guarded tx past
  | findOrInsertTransaction newTx =>
    cases has : newTx.txid with
    | some txid =>
      exact holding_obtains (congrArg (Option.map _) has) (fun _ => rfl) (findOrInsertTransaction_guarded newTx txid has)
    | none =>
      have refused : NaturalCall.program hash storageIdentityKey (.findOrInsertTransaction newTx) =
          .fail (.invalidParameter "args.partial.txid" "not undefined") := by
        unfold NaturalCall.program StorageReaderWriter.findOrInsertTransaction retryOnce
        simp only [has]
        rfl
      rw [refused]
      intro key id _ failed
      cases failed

end

abbrev NaturalPool (ι : Type) := Pool rocksDb WalletError Nat Database ι

/-- Every call at its first await. -/
def startNaturalCalls {ι : Type} (hash : ScriptHash) (storageIdentityKey : String) (calls : ι → NaturalCall) (database : Database) :
    NaturalPool ι := Pool.start database fun caller => (calls caller).program hash storageIdentityKey

section
variable {ι : Type}

/-- The steps outside the windows. A put overwrites no row with other keys, gives a row
nobody has searched for a natural key of its own, and puts no row another call has
looked for in vain and not put yet. -/
def InTurn (calls : ι → NaturalCall) (pool : NaturalPool ι) (caller : ι) : Prop :=
  ∀ table key record next, (pool.task caller).program = .await (.put (.entity table key) record) next →
    ClearPut (calls caller).search pool.store.records table key record.value ∧
    ∀ other, other ≠ caller → (progress (calls other).search (pool.task other).past).emptyHanded = true →
      accepted (calls other).search table record.value = false

variable {hash : ScriptHash} {storageIdentityKey : String} {calls : ι → NaturalCall} {database : Database} {pool : NaturalPool ι}

theorem natural_contracted : Pool.Contracted (exec hash) (InTurn calls) (fun database => NaturalStore database.records)
    (fun caller => naturalContract (calls caller).search) (fun caller => Obtains (calls caller)) where
  steady _ _ _ holds := relied_refl holds
  trans _ _ _ _ _ earlier later := relied_trans earlier later
  stable _ _ _ _ _ obtains _ := obtains
  permits pool caller op next _ inTurn awaiting := by
    cases op with
    | put key record =>
      cases key with
      | entity table key => exact (inTurn table key record next awaiting).1
      | counter | outputPrimary | index => trivial
    | get | remove | scan | getRange | nextId | reserve => trivial
  keeps _ _ _ _ holds _ _ does := (NaturalOp.keeps does holds).1
  spares pool caller other op next holds inTurn awaiting does different := by
    refine ⟨(NaturalOp.keeps does holds).1, (NaturalOp.keeps does holds).2, fun empty unstored => ?_⟩
    cases does with
    | read reads =>
      rw [reads.exec_eq]
      exact unstored
    | nextId table => exact unstored.of_rows fun which key => takeId_row table which key pool.store
    | put table key record _ _ _ _ => exact unstored.put ((inTurn table key record next awaiting).2 other different empty)

def AcceptedAt (sought : SearchKey) (key : RowKey) (records : Records) : Prop :=
  ∃ row, records.row sought.table key = some row ∧ sought.accepts sought.table row.value = true

theorem AcceptedAt.persists (here : AcceptedAt sought key before)
    (kept : Persists before after) : AcceptedAt sought key after := by
  obtain ⟨row, stored, accepts⟩ := here
  obtain ⟨later, still, same⟩ := kept _ _ _ stored
  exact ⟨later, still, (accepts_congr same).trans accepts⟩

theorem obtained_next {sought progress op key} (holds : NaturalStore database.records)
    (does : NaturalOp (some sought) progress database.records op)
    (obtained : (progress.next (some sought) ⟨op, (exec hash op database).1⟩).obtained = some key) :
    progress.obtained = some key ∨
      AcceptedAt sought key (exec hash op database).2.records ∧ ∀ other, AcceptedAt sought other database.records → other = key := by
  cases does with
  | nextId table => exact .inl obtained
  | read reads =>
    cases op with
    | get | getRange => exact .inl obtained
    | put | remove | nextId | reserve => exact reads.elim
    | scan table =>
      by_cases mine : (some sought).map SearchKey.table = some table
      · obtain rfl : sought.table = table := by simpa using mine
        have found := found_of_scan holds mine progress
        have filtered : (progress.next (some sought) ⟨.scan sought.table, scanEntities sought.table database.records⟩).obtained =
            foundRow (some sought) sought.table ((scanEntities sought.table database.records).map Versioned.value) :=
          congrArg Progress.obtained (if_pos mine)
        have here : foundRow (some sought) sought.table ((scanEntities sought.table database.records).map Versioned.value) = some key :=
          filtered.symm.trans obtained
        unfold foundRow at here
        rcases rows : ((scanEntities sought.table database.records).map Versioned.value).filter (accepted (some sought) sought.table)
          with _ | ⟨row, _ | ⟨twin, rest⟩⟩
        · rw [rows] at here
          cases here
        · rw [rows] at here found
          obtain rfl : rowKey sought.table row = key := by simpa using here
          obtain ⟨-, accepts, stored, at', keys⟩ := found
          refine .inr ⟨⟨stored, at', (accepts_congr keys).trans accepts⟩, fun other also => ?_⟩
          obtain ⟨other', stored', accepts'⟩ := also
          have listed : other'.value ∈ ((scanEntities sought.table database.records).map Versioned.value).filter
              (accepted (some sought) sought.table) :=
            List.mem_filter.mpr ⟨List.mem_map_of_mem (mem_scanEntities.mpr ⟨other, stored'⟩), accepts'⟩
          rw [rows, List.mem_singleton] at listed
          rw [← listed]
          exact (holds.keyed _ _ _ stored' (accepts_table accepts').2).symm
        · rw [rows] at here
          cases here
      · have still : progress.next (some sought) ⟨.scan table, scanEntities table database.records⟩ = progress := if_neg mine
        exact .inl (still ▸ obtained)
  | put table put record _ _ _ mayHold =>
    by_cases mine : (some sought).map SearchKey.table = some table
    · obtain rfl : sought.table = table := by simpa using mine
      have now : (if accepted (some sought) sought.table record.value then some put else none) = some key :=
        (congrArg Progress.obtained (if_pos mine)).symm.trans obtained
      split at now
      · next accepts =>
        cases now
        rcases mayHold accepts with unstored | before
        · refine .inr ⟨⟨record, row_insert_same, accepts⟩, fun other also => ?_⟩
          obtain ⟨row, stored, takes⟩ := also
          have rejected := unstored sought.table other row stored
          rw [show accepted (some sought) sought.table row.value = true from takes] at rejected
          cases rejected
        · exact .inl before
      · cases now
    · have still : progress.next (some sought) ⟨.put (.entity table put) record, ()⟩ = progress := if_neg mine
      exact .inl (still ▸ obtained)

def Obtained (calls : ι → NaturalCall) (pool : NaturalPool ι) (caller : ι) (sought : SearchKey) (key : RowKey) : Prop :=
  (calls caller).search = some sought ∧ (progress (some sought) (pool.task caller).past).obtained = some key

/-- Every row a call has got hold of is stored, and calls that search for the same have the same. -/
structure Settled (calls : ι → NaturalCall) (pool : NaturalPool ι) : Prop where
  stored : ∀ caller sought key, Obtained calls pool caller sought key → AcceptedAt sought key pool.store.records
  agree : ∀ first second sought key other, Obtained calls pool first sought key → Obtained calls pool second sought other → key = other

theorem startNaturalCalls_guarded (hash : ScriptHash) (storageIdentityKey : String) (calls : ι → NaturalCall) (database) :
    ∀ caller, ((startNaturalCalls hash storageIdentityKey calls database).task caller).program.Guarded (exec hash)
      (naturalContract (calls caller).search) (Obtains (calls caller)) [] database :=
  fun caller => naturalCall_guarded (calls caller) []

section
variable [DecidableEq ι]

theorem settled_step {next : op.Reply → RocksDbM Nat} (settled : Settled calls pool)
    (holds : NaturalStore pool.store.records)
    (does : NaturalOp (calls caller).search (progress (calls caller).search (pool.task caller).past) pool.store.records op)
    (store : after.store = (exec hash op pool.store).2)
    (tasks : after.task = Function.update pool.task caller
      ⟨(pool.task caller).past ++ [⟨op, (exec hash op pool.store).1⟩], next (exec hash op pool.store).1⟩) : Settled calls after := by
  have kept := store ▸ (NaturalOp.keeps does holds).2
  -- what a call holds after the step it held before, or it is the one row the mover could find
  have before : ∀ who sought key, Obtained calls after who sought key → Obtained calls pool who sought key ∨
      who = caller ∧ AcceptedAt sought key after.store.records ∧ ∀ other, AcceptedAt sought other pool.store.records → other = key := by
    intro who sought key obtained
    obtain ⟨searches, has⟩ := obtained
    by_cases moved : who = caller
    · subst moved
      rw [tasks, Function.update_self, progress_append] at has
      rw [searches] at does
      rw [store]
      rcases obtained_next holds does has with had | fresh
      · exact .inl ⟨searches, had⟩
      · exact .inr ⟨rfl, fresh⟩
    · rw [tasks, Function.update_of_ne moved] at has
      exact .inl ⟨searches, has⟩
  refine ⟨fun who sought key obtained => ?_, fun first second sought key other mine yours => ?_⟩
  · rcases before who sought key obtained with had | ⟨-, here, -⟩
    · exact (settled.stored who sought key had).persists kept
    · exact here
  · rcases before first sought key mine with had | ⟨rfl, -, only⟩
    · rcases before second sought other yours with also | ⟨rfl, -, only⟩
      · exact settled.agree first second sought key other had also
      · exact only key (settled.stored first sought key had)
    · rcases before second sought other yours with also | ⟨rfl, -, -⟩
      · exact (only other (settled.stored second sought other also)).symm
      · exact Option.some.inj (mine.2.symm.trans yours.2)

theorem settled_reaches (holds : NaturalStore database.records)
    (reached : Pool.Reaches (exec hash) (InTurn calls) (startNaturalCalls hash storageIdentityKey calls database) pool) : Settled calls pool := by
  have contracted : Pool.Contracted (exec hash) (InTurn calls) _ _ _ := natural_contracted
  have step : ∀ pool caller after, Pool.Reaches (exec hash) (InTurn calls) (startNaturalCalls hash storageIdentityKey calls database) pool →
      Settled calls pool → InTurn calls pool caller → pool.advance (exec hash) caller = some after → Settled calls after := by
    intro pool caller after reached settled inTurn moves
    obtain ⟨op, next, awaiting, store, tasks⟩ := Pool.advance_cases moves
    have guarded := startNaturalCalls_guarded hash storageIdentityKey calls database
    have does := reached.promised contracted holds guarded inTurn awaiting
    exact settled_step settled (reached.guarded contracted holds guarded).1 does store tasks
  refine reached.invariant ?_ step
  constructor
  · intro caller sought key obtained
    cases obtained.2
  · intro first second sought key other obtained
    cases obtained.2

/-- Natural keys stay unique, and calls for one key resolve to one id, in every run whose
steps are all in turn. -/
theorem naturalKeys_unique (holds : NaturalStore database.records)
    (reached : Pool.Reaches (exec hash) (InTurn calls) (startNaturalCalls hash storageIdentityKey calls database) pool) :
    NaturalKeysUnique pool.store.records ∧
      ∀ first second sought id other, (calls first).search = some sought → (calls second).search = some sought →
        (pool.task first).program = .done id → (pool.task second).program = .done other → id = other := by
  have guarded := startNaturalCalls_guarded hash storageIdentityKey calls database
  obtain ⟨kept, each⟩ := reached.guarded natural_contracted holds guarded
  have settled := settled_reaches holds reached
  have obtains : ∀ caller sought id, (calls caller).search = some sought → (pool.task caller).program = .done id →
      Obtained calls pool caller sought (.id id) := by
    intro caller sought id searches returned
    have here := each caller
    rw [returned] at here
    have has := here sought id searches rfl
    rw [searches] at has
    exact ⟨searches, has⟩
  refine ⟨kept.unique, fun first second sought id other searches also returned returns => ?_⟩
  have same := settled.agree first second sought _ _ (obtains first sought id searches returned) (obtains second sought other also returns)
  exact RowKey.id.inj same

end
end

/-- Two calls for one new user. -/
def newUserCalls (_ : Bool) : NaturalCall := .user "alice"

def startNewUsers : NaturalPool Bool := startNaturalCalls noHash "storage" newUserCalls .empty

/-- Both look for the user before either of them has put it. -/
theorem naturalKeys_doubled :
    ∃ pool, Pool.Reaches (exec noHash) Pool.anyStep startNewUsers pool ∧
      (pool.task false).program = .done 1 ∧ (pool.task true).program = .done 2 ∧ ¬ NaturalKeysUnique pool.store.records := by
  have runs : (startNewUsers.follow (exec noHash) ([false, true] ++ List.replicate 6 false ++ List.replicate 6 true)).map (fun pool =>
      ((pool.task false).program.outcome, (pool.task true).program.outcome,
        (pool.store.records.row .users (.id 1)).map Versioned.value, (pool.store.records.row .users (.id 2)).map Versioned.value)) =
      some (some (.ok 1), some (.ok 2), some ⟨1, "alice", "storage"⟩, some ⟨2, "alice", "storage"⟩) := by decide +kernel
  obtain ⟨pool, followed, settled⟩ := Option.map_eq_some_iff.mp runs
  simp only [Prod.mk.injEq, Program.outcome_ok, Option.map_eq_some_iff] at settled
  obtain ⟨first, second, ⟨one, here, is⟩, two, there, also⟩ := settled
  refine ⟨pool, Pool.reaches_follow followed, first, second, fun unique => ?_⟩
  have same := unique .users _ _ one two here there rfl (by rw [is, also]; rfl)
  cases same

def aloneWithKey (pool : NaturalPool Bool) (caller : Bool) : Bool :=
  match (pool.task caller).program with
  | .await (.put (.entity table key) record) _ =>
    (pool.store.records.row table key).isNone &&
      (scanEntities table pool.store.records).all (fun twin => naturalKey table twin.value ≠ naturalKey table record.value) &&
      !(progress (newUserCalls !caller).search (pool.task !caller).past).emptyHanded
  | _ => true

theorem aloneWithKey_inTurn (pool) (caller : Bool) (alone : aloneWithKey pool caller = true) :
    InTurn newUserCalls pool caller := by
  intro table key record next awaiting
  rw [aloneWithKey, awaiting] at alone
  simp only [Bool.and_eq_true, Option.isNone_iff_eq_none, List.all_eq_true, decide_eq_true_eq, Bool.not_eq_true'] at alone
  obtain ⟨⟨absent, others⟩, idle⟩ := alone
  refine ⟨⟨fun old stored => ?_, fun _ other twin stored _ same => ?_⟩, fun other different empty => ?_⟩
  · rw [absent] at stored
    cases stored
  · exact absurd same (others twin (mem_scanEntities.mpr ⟨other, stored⟩))
  · obtain rfl : other = !caller := by
      cases other <;> cases caller <;> simp_all
    rw [idle] at empty
    cases empty

/-- The second call looks for the user while the first still adds its default basket. -/
theorem naturalKeys_unique_apart :
    ∃ pool, Pool.Reaches (exec noHash) (InTurn newUserCalls) startNewUsers pool ∧
      (pool.task false).program = .done 1 ∧ (pool.task true).program = .done 1 ∧ NaturalKeysUnique pool.store.records := by
  have runs : (startNewUsers.followWhile (exec noHash) aloneWithKey (List.replicate 4 false ++ [true] ++ List.replicate 3 false)).map
      (fun pool => ((pool.task false).program.outcome, (pool.task true).program.outcome)) =
      some (some (.ok 1), some (.ok 1)) := by decide +kernel
  obtain ⟨pool, followed, settled⟩ := Option.map_eq_some_iff.mp runs
  simp only [Prod.mk.injEq, Program.outcome_ok] at settled
  have reached := Pool.reaches_followWhile aloneWithKey_inTurn followed
  have empty : NaturalStore Database.empty.records := by
    constructor
    · intro table key other row twin stored
      cases stored
    · intro table key row stored
      cases stored
  exact ⟨pool, reached, settled.1, settled.2, (naturalKeys_unique empty reached).1⟩

end WalletToolbox

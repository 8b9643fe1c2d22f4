import WalletToolbox.Proofs.RequestPosts
import WalletToolbox.Proofs.SequentialIndexes

/-! Any number of calls on the requests, interleaved. Each writes back the whole lists
of a request it read some time before, so another call's notifications and notes are
lost when they were stored in between; when every write is up to date, none is. -/

namespace WalletToolbox
open Async EntityProvenTxReq StorageProvider StorageRocksDb

inductive RequestCall where
  | insertOrMerge (newReq : TableProvenTxReq)
  | getProvenOrReq (txid : String) (newReq : TableProvenTxReq)
  | attemptToPostReqsToNetwork (posting : Posting) (nested : Bool) (reqs : List TableProvenTxReq)
  | updateProvenTxReqWithNewProvenTx (args : UpdateProvenTxReqWithNewProvenTxArgs)

inductive RequestResult where
  | merged (req : TableProvenTxReq)
  | provenOrReq (found : StorageProvenOrReq)
  | posted (details : List PostReqsToNetworkDetails)
  | proven (result : UpdateProvenTxReqWithNewProvenTxResult)

namespace RequestCall

def program (hash : ScriptHash) (now : Clock) : RequestCall → RocksDbM RequestResult
  | .insertOrMerge newReq => do return .merged (← perform hash (EntityProvenTxReq.insertOrMerge now newReq))
  | .getProvenOrReq txid newReq => do return .provenOrReq (← perform hash (StorageProvider.getProvenOrReq now txid (some newReq)))
  | .attemptToPostReqsToNetwork posting nested reqs => do
    return .posted (← perform hash (WalletToolbox.attemptToPostReqsToNetwork now posting nested reqs))
  | .updateProvenTxReqWithNewProvenTx args => do
    return .proven (← perform hash (StorageProvider.updateProvenTxReqWithNewProvenTx now args))

def origin : RequestCall → Origin
  | .insertOrMerge _ | .getProvenOrReq _ _ => { byTxid := true }
  | .attemptToPostReqsToNetwork _ _ reqs => { handed := reqs }
  | .updateProvenTxReqWithNewProvenTx _ => {}

def Sound : RequestCall → Prop
  | .attemptToPostReqsToNetwork posting _ reqs =>
    (∀ req, (posting.mergeReqToBeefToShareExternally req).Uses LooksUpProven) ∧ (reqs.map TableProvenTxReq.provenTxReqId).Nodup
  | _ => True

def stores : RequestCall → RequestResult → Option TableProvenTxReq
  | .insertOrMerge newReq, _ => some newReq
  | .getProvenOrReq _ newReq, .provenOrReq found => if found.proven.isNone then some newReq else none
  | _, _ => none

end RequestCall

abbrev RequestPool (ι : Type) := Pool rocksDb WalletError RequestResult Database ι

section
variable {ι : Type} {hash : ScriptHash} {clock : ι → Clock} {calls : ι → RequestCall} {database : Database} {pool : RequestPool ι}

def startRequestCalls (hash : ScriptHash) (clock : ι → Clock) (calls : ι → RequestCall) (database : Database) : RequestPool ι :=
  .start database fun caller => (calls caller).program hash (clock caller)

def InSight (calls : ι → RequestCall) (pool : RequestPool ι) (caller : ι) : Prop :=
  ∀ key record next, (pool.task caller).program = .await (.put (.entity .provenTxReqs key) record) next →
    UpToDate (calls caller).origin (pool.task caller).past key pool.store.records

def StoresNew (now : Clock) (call : RequestCall) (_ : List (Event rocksDb)) (outcome : Except WalletError RequestResult) (after : Database) : Prop :=
  ∀ result newReq, outcome = .ok result → call.stores result = some newReq → MergedIn now newReq after.records

theorem requestCall_guarded (now : Clock) (call : RequestCall) (sound : call.Sound) (keyed : RequestsKeyed database.records) :
    (call.program hash now).Guarded (exec hash) (requestContract call.origin) (StoresNew now call) [] database := by
  have ends : ∀ {α : Type} {method : StorageM α} {result : α → RequestResult} {post : List (Event rocksDb) → Except WalletError α → Database → Prop},
      (perform hash method).Guarded (exec hash) (requestContract call.origin) post [] database →
      (∀ value newReq after past, post past (.ok value) after → call.stores (result value) = some newReq → MergedIn now newReq after.records) →
      (perform hash method >>= fun value => .done (result value)).Guarded (exec hash) (requestContract call.origin)
        (StoresNew now call) [] database := by
    intro α method result post guarded stores
    refine Program.Guarded.bind (guarded.mono fun past outcome after holds => ?_)
    cases outcome with
    | ok value =>
      intro final newReq same stored
      cases same
      exact stores value newReq after past holds stored
    | error error => exact fun final newReq failed => by cases failed
  cases call with
  | insertOrMerge newReq =>
    refine ends (insertOrMerge_guarded rfl now newReq) fun value other after past merged stored => ?_
    cases stored
    exact merged value rfl
  | getProvenOrReq txid newReq =>
    refine ends (getProvenOrReq_guarded rfl now txid newReq) fun value other after past merged stored => ?_
    have stored : (if value.proven.isNone then some newReq else none) = some other := stored
    split at stored
    · next none =>
      cases stored
      exact merged value rfl (Option.isNone_iff_eq_none.mp none)
    · cases stored
  | attemptToPostReqsToNetwork posting nested reqs =>
    obtain ⟨looksUp, different⟩ := sound
    have reflect : ∀ req ∈ reqs, Reflects { handed := reqs } [] req := by
      intro req member seen last
      have found : reqs.find? (fun other => rowKey .provenTxReqs other = rowKey .provenTxReqs req) = some seen := last
      have same : rowKey .provenTxReqs seen = rowKey .provenTxReqs req := by simpa using List.find?_some found
      have one := List.inj_on_of_nodup_map different (List.mem_of_find?_eq_some found) member (RowKey.id.inj same)
      rw [one]
      exact .refl _
    exact ends (attemptToPostReqsToNetwork_guarded now posting nested rfl looksUp different reflect keyed) fun _ _ _ _ _ stored => by cases stored
  | updateProvenTxReqWithNewProvenTx args =>
    exact ends (updateProvenTxReqWithNewProvenTx_guarded now args rfl) fun _ _ _ _ _ stored => by cases stored

theorem requests_contracted : Pool.Contracted (exec hash) (InSight calls) (fun database => RequestsKeyed database.records)
    (fun caller => requestContract (calls caller).origin) (fun caller => StoresNew (clock caller) (calls caller)) where
  steady _ _ _ keyed := requestRely_refl keyed
  trans _ _ _ _ _ earlier later := ⟨later.1, earlier.2.trans later.2⟩
  stable _ _ _ _ _ stores relied := fun result newReq same stored => (stores result newReq same stored).grow relied.2
  permits pool caller op next _ inSight awaiting := by
    cases op with
    | put key record =>
      cases key with
      | entity table key => cases table <;> first | exact inSight key record next awaiting | trivial
      | counter | outputPrimary | index => trivial
    | get | remove | scan | getRange | nextId | reserve => trivial
  keeps _ _ _ _ keyed _ _ does := (RequestOp.keeps hash does keyed).1
  spares _ _ _ _ _ keyed _ _ does _ := RequestOp.keeps hash does keyed

theorem startRequestCalls_guarded (sound : ∀ caller, (calls caller).Sound) (keyed : RequestsKeyed database.records) (caller : ι) :
    ((startRequestCalls hash clock calls database).task caller).program.Guarded (exec hash)
      (requestContract (calls caller).origin) (StoresNew (clock caller) (calls caller)) [] database :=
  requestCall_guarded (clock caller) (calls caller) (sound caller) keyed

def WritesKept (records : Records) (past : List (Event rocksDb)) : Prop :=
  ∀ key record, (⟨.put (.entity .provenTxReqs key) record, ()⟩ : Event rocksDb) ∈ past →
    ∃ stored, records.row .provenTxReqs key = some stored ∧ ListsWithin record.value stored.value

/-- What a run leaves of the requests: the lists they had, the lists any call wrote, and
the ids and notes of the new requests. -/
structure RequestsKept (clock : ι → Clock) (calls : ι → RequestCall) (database : Database) (pool : RequestPool ι) : Prop where
  grow : RequestsGrow database.records pool.store.records
  written : ∀ caller, WritesKept pool.store.records (pool.task caller).past
  merged : ∀ caller result newReq, (pool.task caller).program = .done result → (calls caller).stores result = some newReq →
    MergedIn (clock caller) newReq pool.store.records

theorem WritesKept.grow (kept : WritesKept before past)
    (grows : RequestsGrow before after) : WritesKept after past := by
  intro key record member
  obtain ⟨stored, here, within⟩ := kept key record member
  obtain ⟨later, still, -, further⟩ := grows key stored here
  exact ⟨later, still, within.trans further⟩

variable [DecidableEq ι]

/-- Every write is still there after each step. -/
theorem writes_kept (sound : ∀ caller, (calls caller).Sound) (keyed : RequestsKeyed database.records)
    (reached : Pool.Reaches (exec hash) (InSight calls) (startRequestCalls hash clock calls database) pool) :
    RequestsGrow database.records pool.store.records ∧ ∀ caller, WritesKept pool.store.records (pool.task caller).past := by
  have contracted : Pool.Contracted (exec hash) (InSight calls) _ (fun caller => requestContract (calls caller).origin)
      (fun caller => StoresNew (clock caller) (calls caller)) := requests_contracted
  have guarded : ∀ caller, ((startRequestCalls hash clock calls database).task caller).program.Guarded (exec hash)
      (requestContract (calls caller).origin) (StoresNew (clock caller) (calls caller)) [] database := startRequestCalls_guarded sound keyed
  have step : ∀ pool mover after, Pool.Reaches (exec hash) (InSight calls) (startRequestCalls hash clock calls database) pool →
      (RequestsGrow database.records pool.store.records ∧ ∀ caller, WritesKept pool.store.records (pool.task caller).past) →
      InSight calls pool mover → pool.advance (exec hash) mover = some after →
      RequestsGrow database.records after.store.records ∧ ∀ caller, WritesKept after.store.records (after.task caller).past := by
    intro pool mover after reached held inSight moves
    obtain ⟨grown, kept⟩ := held
    obtain ⟨op, next, awaiting, store, tasks⟩ := Pool.advance_cases moves
    have does := reached.promised contracted keyed guarded inSight awaiting
    have grows : RequestsGrow pool.store.records after.store.records :=
      store ▸ (RequestOp.keeps hash does (reached.guarded contracted keyed guarded).1).2
    refine ⟨grown.trans grows, fun caller => ?_⟩
    rw [tasks]
    by_cases moved : caller = mover
    · subst moved
      rw [Function.update_self]
      intro key record member
      rcases List.mem_append.mp member with earlier | now
      · exact (kept caller).grow grows key record earlier
      · obtain rfl : op = .put (.entity .provenTxReqs key) record := congrArg Event.op (List.mem_singleton.mp now).symm
        rw [store]
        exact ⟨record, row_insert_same, .refl _⟩
    · rw [Function.update_of_ne moved]
      exact (kept caller).grow grows
  refine reached.invariant ⟨.refl _, ?_⟩ step
  intro caller key record member
  cases member

/-- No notification and no note is lost in a run whose writes are all up to date. -/
theorem requests_kept (sound : ∀ caller, (calls caller).Sound) (keyed : RequestsKeyed database.records)
    (reached : Pool.Reaches (exec hash) (InSight calls) (startRequestCalls hash clock calls database) pool) :
    RequestsKept clock calls database pool := by
  obtain ⟨grow, written⟩ := writes_kept sound keyed reached
  refine ⟨grow, written, fun caller result newReq returned stored => ?_⟩
  have here := (reached.guarded requests_contracted keyed (startRequestCalls_guarded sound keyed)).2 caller
  rw [returned] at here
  exact here result newReq rfl stored

end

/-- A request that has transaction 1 to notify. -/
def sampleReq (id : Nat) (notify : List Nat) : TableProvenTxReq where
  provenTxReqId := id
  provenTxId := none
  status := .unmined
  attempts := 0
  notified := false
  txid := "t"
  batch := none
  history := []
  notify := notify
  rawTx := [1]
  inputBEEF := some []
  wasBroadcast := true
  rebroadcastAttempts := 0

def storedReq : Database where
  records := @AList.insert _ Record _ (.entity .provenTxReqs (.id 1)) ⟨sampleReq 1 [1], 1⟩ ∅
  idBlocks _ := none

theorem storedReq_keyed : RequestsKeyed storedReq.records := by
  intro key row stored
  by_cases here : key = .id 1
  · subst here
    have is := row_insert_same.symm.trans stored
    cases is
    rfl
  · have empty := (row_insert_other fun both => here both.2).symm.trans stored
    cases empty

def noonClock (_ : Bool) : Clock := fun _ => "2024-01-01T12:00:00.000Z"

def sampleProof : UpdateProvenTxReqWithNewProvenTxArgs where
  provenTxReqId := 1
  txid := "t"
  height := 10
  index := 0
  blockHash := "b"
  merkleRoot := "r"
  merklePath := []

/-- The proof of the request arrives while it is to notify transaction 2 as well. -/
def proofAndMerge : Bool → RequestCall
  | false => .updateProvenTxReqWithNewProvenTx sampleProof
  | true => .getProvenOrReq "t" (sampleReq 0 [2])

def startProofAndMerge : RequestPool Bool := startRequestCalls noHash noonClock proofAndMerge storedReq

def mergedNew (program : RocksDbM RequestResult) : Bool :=
  match program with
  | .done (.provenOrReq found) => found.proven.isNone
  | _ => false

theorem mergedNew_stores (merged : mergedNew program = true) :
    ∃ result, program = .done result ∧ (RequestCall.getProvenOrReq txid newReq).stores result = some newReq := by
  unfold mergedNew at merged
  split at merged
  · exact ⟨_, rfl, if_pos merged⟩
  · cases merged

/-- The proof was read before transaction 2 was merged in, and is written afterwards. -/
theorem requests_lose :
    ∃ pool, Pool.Reaches (exec noHash) Pool.anyStep startProofAndMerge pool ∧
      (pool.store.records.row .provenTxReqs (.id 1)).map (fun row => (row.value.status, row.value.notify)) = some (.completed, [1]) ∧
      ¬ RequestsKept noonClock proofAndMerge storedReq pool := by
  have runs : (startProofAndMerge.follow (exec noHash) ([false] ++ List.replicate 5 true ++ List.replicate 12 false)).map (fun pool =>
      (mergedNew (pool.task true).program, (scanEntities .provenTxReqs pool.store.records).map (fun row => row.value.notify),
        (pool.store.records.row .provenTxReqs (.id 1)).map fun row => (row.value.status, row.value.notify))) =
      some (true, [[1]], some (.completed, [1])) := by decide +kernel
  obtain ⟨pool, followed, settled⟩ := Option.map_eq_some_iff.mp runs
  simp only [Prod.mk.injEq] at settled
  obtain ⟨merged, only, stored⟩ := settled
  refine ⟨pool, Pool.reaches_follow followed, stored, fun kept => ?_⟩
  obtain ⟨result, returned, stores⟩ := mergedNew_stores merged
  obtain ⟨key, row, here, -, ids, -⟩ := kept.merged true result _ returned stores
  have listed := only ▸ List.mem_map_of_mem (mem_scanEntities.mpr ⟨key, here⟩)
  rw [List.mem_singleton.mp listed] at ids
  have twoIn := ids 2 (List.mem_singleton.mpr rfl) (by decide)
  exact absurd twoIn (by decide)

def readsRequest (key : RowKey) (event : Event rocksDb) : Bool :=
  match event.op with
  | .get (.entity .provenTxReqs other) => other = key
  | _ => false

def putsInSight (pool : RequestPool Bool) (caller : Bool) : Bool :=
  match (pool.task caller).program with
  | .await (.put (.entity .provenTxReqs key) _) _ =>
    match pool.store.records.row .provenTxReqs key, (pool.task caller).past.reverse with
    | none, _ => true
    | some stored, second :: first :: earlier => readsRequest key first && readsRequest key second &&
        (lastSeen (proofAndMerge caller).origin earlier.reverse key).any fun seen =>
          stored.value.notify ⊆ seen.notify ∧ stored.value.history ⊆ seen.history
    | some _, _ => false
  | _ => true

theorem readsRequest_reads (reads : readsRequest key event = true) : ReadsRequest key event := by
  unfold readsRequest at reads
  split at reads
  · next other is =>
    obtain rfl := of_decide_eq_true reads
    exact is
  · cases reads

theorem putsInSight_inSight (pool) (caller : Bool) (puts : putsInSight pool caller = true) :
    InSight proofAndMerge pool caller := by
  intro key record next awaiting stored here
  simp only [putsInSight, awaiting, here] at puts
  split at puts
  · next absent => cases absent
  · next other second first earlier same reversed =>
    cases same
    simp only [Bool.and_eq_true, Option.any_eq_true, decide_eq_true_eq] at puts
    obtain ⟨⟨reads, again⟩, seen, last, notify, history⟩ := puts
    refine ⟨earlier.reverse, first, second, seen, ?_, readsRequest_reads reads, readsRequest_reads again, last, notify, history⟩
    have past := congrArg List.reverse reversed
    simpa using past
  · cases puts

/-- The new request is merged into the stored one before the proof reads it. -/
theorem requests_kept_apart :
    ∃ pool, Pool.Reaches (exec noHash) (InSight proofAndMerge) startProofAndMerge pool ∧
      (pool.store.records.row .provenTxReqs (.id 1)).map (fun row => (row.value.status, row.value.notify)) = some (.completed, [1, 2]) ∧
      RequestsKept noonClock proofAndMerge storedReq pool := by
  have runs : (startProofAndMerge.followWhile (exec noHash) putsInSight (List.replicate 5 true ++ List.replicate 13 false)).map (fun pool =>
      (pool.store.records.row .provenTxReqs (.id 1)).map fun row => (row.value.status, row.value.notify)) =
      some (some (.completed, [1, 2])) := by decide +kernel
  obtain ⟨pool, followed, stored⟩ := Option.map_eq_some_iff.mp runs
  have reached := Pool.reaches_followWhile putsInSight_inSight followed
  have sound : ∀ caller, (proofAndMerge caller).Sound := by
    intro caller
    cases caller <;> trivial
  exact ⟨pool, reached, stored, requests_kept sound storedReq_keyed reached⟩

end WalletToolbox

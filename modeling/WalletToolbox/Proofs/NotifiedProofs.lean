import WalletToolbox.Proofs.BroadcastsSettle
import WalletToolbox.Proofs.TableRows

/-! When a proof has arrived. A request that is not linked to a proof, for a transaction whose
proof is not stored, is completed together with the transactions it notifies. In every other
case nothing is written. -/

namespace WalletToolbox
open Async StorageRocksDb StorageProvider EntityProvenTxReq TableRows

/-- The request is completed by the stored proof of its transaction, and so is every
transaction in its notify list that exists. -/
def ProofRecorded (rows : TableRows) (provenTxReqId : Nat) (txid : String) : Prop :=
  ∃ req, rows .provenTxReqs (.id provenTxReqId) = some req ∧ req.status = .completed ∧
    ∃ key proven, rows .provenTxs key = some proven ∧ proven.txid = txid ∧ req.provenTxId = some proven.provenTxId ∧
      ∀ id ∈ req.notify, ∀ tx, rows .transactions (.id id) = some tx → tx.status = .completed ∧ tx.provenTxId = some proven.provenTxId

/-- A request without a proof, of a transaction whose proof is not stored. -/
def AwaitsProof (rows : TableRows) (req : TableProvenTxReq) (txid : String) : Prop :=
  truthyId req.provenTxId = none ∧ ∀ key proven, rows .provenTxs key = some proven → proven.txid ≠ txid

/-- No id that will be handed out is zero. -/
def IdsFromOne (database : Database) : Prop := ∀ table block, database.idBlocks table = some block → 0 < block.next

section
variable {hash : ScriptHash} {now : Clock} {database : Database}

theorem takeId_positive (ids : IdsFromOne database) (table) : 0 < (takeId table database).1 := by
  unfold takeId
  split
  · next block held =>
    split
    · exact ids table block held
    · dsimp only
      unfold ROCKSDB_ID_BLOCK_SIZE
      omega
  · dsimp only
    unfold ROCKSDB_ID_BLOCK_SIZE
    omega

theorem fromStorageId_resolves (owned : RowsOwned database.records) {id post}
    (rest : ∀ row, database.rows .provenTxReqs (.id id) = some row → post (ofApi row) database) :
    (fromStorageId id).Resolves (callAlone hash) database post := by
  refine .bind (find_resolves owned rfl fun found is => ?_)
  refine .bind (verifyOneOrNone_resolves (fun _ => .fail _) fun row one => .done ?_)
  obtain ⟨_, key, here, keyed⟩ := (is.member row).mp (one ▸ .head _)
  exact rest row (keyed id rfl ▸ here)

def Notified (provenTxId : Nat) (ids : List Nat) (rows : TableRows) : Prop :=
  ∀ id ∈ ids, ∀ tx, rows .transactions (.id id) = some tx → tx.status = .completed ∧ tx.provenTxId = some provenTxId

structure Notifies (before after : TableRows) : Prop where
  others : ∀ table, table ≠ .transactions → after table = before table
  owned : after.Owned

theorem Notifies.trans (earlier : Notifies first second) (later : Notifies second third) : Notifies first third :=
  ⟨fun table other => (later.others table other).trans (earlier.others table other), later.owned⟩

def proofUpdate (provenTxId : Nat) : TransactionUpdate := { provenTxId := some (some provenTxId), status := some .completed }

theorem notified_update (owned : rows.Owned) (provenTxId id : Nat) (done) (notified : Notified provenTxId done rows) :
    Notified provenTxId (id :: done) (rows.change .transactions (.id id) (proofUpdate provenTxId).spread) ∧
      Notifies rows (rows.change .transactions (.id id) (proofUpdate provenTxId).spread) := by
  refine ⟨fun other member tx here => ?_, fun table other => change_other other, owned.change _ _⟩
  have keeps : ∀ row : Row .transactions, rowKey .transactions ((proofUpdate provenTxId).spread row) = rowKey .transactions row := fun _ => rfl
  rw [owned.change_same keeps] at here
  split at here
  · obtain ⟨row, _, rfl⟩ := Option.map_eq_some_iff.mp here
    exact ⟨rfl, rfl⟩
  · next different =>
    rcases List.mem_cons.mp member with rfl | earlier
    · exact (different rfl).elim
    · exact notified other earlier tx here

theorem notifyEachOfProof_ends (provenTxId : Nat) (ids done : List Nat) (req : TableProvenTxReq) (owned : database.rows.Owned)
    (notified : Notified provenTxId done database.rows) :
    (notifyEachOfProof now provenTxId ids req).Ends (callAlone hash) database fun outcome after =>
      Notified provenTxId (ids ++ done) after.rows ∧ Notifies database.rows after.rows ∧
        ∀ noted, outcome = .ok noted → ∃ history, noted = { req with history } := by
  induction ids generalizing database done req with
  | nil => exact ⟨notified, ⟨fun _ _ => rfl, owned⟩, fun noted same => ⟨req.history, (Except.ok.inj same).symm⟩⟩
  | cons id rest ih =>
    apply settle_await_ends
    have updates : (callAlone hash (.update .transactions id (proofUpdate provenTxId)) database).2.rows =
        database.rows.change .transactions (.id id) (proofUpdate provenTxId).spread := update_rows .transactions id _
    obtain ⟨also, kept⟩ := notified_update owned provenTxId id done notified
    rw [← updates] at also kept
    have later := ih (id :: done) (addHistoryNote now (notifyNote provenTxId id
      (callAlone hash (.update .transactions id (proofUpdate provenTxId)) database).1) false req) kept.owned also
    refine later.mono fun outcome after ⟨all, more, same⟩ => ⟨fun other member => all other ?_, kept.trans more, fun noted is => ?_⟩
    · simp only [List.mem_append, List.mem_cons] at member ⊢
      tauto
    · obtain ⟨history, rfl⟩ := same noted is
      obtain ⟨noted, same⟩ := addHistoryNote_eq now (notifyNote provenTxId id
        (callAlone hash (.update .transactions id (proofUpdate provenTxId)) database).1) false req
      exact ⟨history, by rw [same]⟩

/-- A request that is completed by a proof, as it is stored or held in memory. -/
structure CompletedBy (id : Nat) (notify : List Nat) (provenTxId : Nat) (req : TableProvenTxReq) : Prop where
  id : req.provenTxReqId = id
  status : req.status = .completed
  linked : req.provenTxId = some provenTxId
  notify : req.notify = notify

structure ProofLinked (rows : TableRows) (id : Nat) (notify : List Nat) (proven : TableProvenTx) : Prop where
  owned : rows.Owned
  proof : rows .provenTxs (.id proven.provenTxId) = some proven
  request : ∃ req, rows .provenTxReqs (.id id) = some req ∧ CompletedBy id notify proven.provenTxId req

theorem ProofLinked.notifies {before after id notify proven}
    (linked : ProofLinked before id notify proven) (notifies : Notifies before after) : ProofLinked after id notify proven := by
  refine ⟨notifies.owned, ?_, ?_⟩
  · rw [notifies.others .provenTxs (by simp)]
    exact linked.proof
  · rw [notifies.others .provenTxReqs (by simp)]
    exact linked.request

theorem dynamics_completed {id provenTxId notify req existing} (positive : 0 < provenTxId)
    (completed : CompletedBy id notify provenTxId req) (own : existing.provenTxReqId = id) :
    CompletedBy id notify provenTxId ((dynamics req).spread existing) := by
  have kept : truthyId req.provenTxId = some provenTxId := by
    rw [completed.linked]
    exact if_pos (by simpa using positive.ne')
  refine ⟨own, completed.status, ?_, completed.notify⟩
  show ((truthyId req.provenTxId).map some).getD existing.provenTxId = some provenTxId
  rw [kept]
  rfl

theorem updateDynamics_completed {id notify proven req existing}
    (owned : database.rows.Owned) (positive : 0 < proven.provenTxId) (proof : database.rows .provenTxs (.id proven.provenTxId) = some proven)
    (stored : database.rows .provenTxReqs (.id id) = some existing) (completed : CompletedBy id notify proven.provenTxId req) :
    (updateStorageDynamicProperties req).Resolves (callAlone hash) database fun _ after =>
      ProofLinked after.rows id notify proven ∧ after.rows .transactions = database.rows .transactions := by
  apply await_resolves
  intro reply _
  have updates := @update_rows hash database .provenTxReqs req.provenTxReqId (dynamics req)
  have there : database.rows .provenTxReqs (UpdateKey.row .provenTxReqs req.provenTxReqId) = some existing := completed.id ▸ stored
  rw [change_found there] at updates
  have own := RowKey.id.inj (owned .provenTxReqs _ existing stored)
  have next := dynamics_completed positive completed own
  have put := @put_same database.rows .provenTxReqs ((dynamics req).spread existing)
  have key := congrArg RowKey.id next.id
  rw [updates]
  refine ⟨⟨owned.put _, ?_, _, key ▸ put, next⟩, put_other (by simp)⟩
  rw [put_other (by simp)]
  exact proof

theorem matchesProvenTx_txid {txid : String} :
    matchesProvenTxPartial row { txid } = true ↔ row.txid = txid := by
  simp only [matchesProvenTxPartial, eq_none, Bool.true_and, Bool.and_true, eq_some]
  exact eq_comm

theorem findOrInsertProvenTx_resolves (owned : RowsOwned database.records) (ids : IdsFromOne database) (fresh : TableProvenTx)
    (unnumbered : fresh.provenTxId = 0) : (StorageReaderWriter.findOrInsertProvenTx fresh).Resolves (callAlone hash) database fun result after =>
      (result.2 = false ∧ after = database ∧ ∃ key, database.rows .provenTxs key = some result.1 ∧ result.1.txid = fresh.txid) ∨
        (result.2 = true ∧ (∀ key other, database.rows .provenTxs key = some other → other.txid ≠ fresh.txid) ∧ 0 < result.1.provenTxId ∧
          result.1.txid = fresh.txid ∧ after.rows = database.rows.put .provenTxs result.1) := by
  apply retryOnce_resolves
  apply lookup_ends owned rfl (fun _ => rfl)
  intro found one
  cases found with
  | some proven =>
    obtain ⟨accepted, key, here, _⟩ := one
    exact .inl ⟨rfl, rfl, key, here, matchesProvenTx_txid.mp accepted⟩
  | none =>
    apply Program.Ends.bind
    apply await_ends
    obtain ⟨replied, put⟩ := @insertEntity_after hash database .provenTxs fresh
    have zero : rowId .provenTxs fresh = some 0 := congrArg some unnumbered
    rw [prepared_new zero] at replied put
    have reply : (callAlone hash (.insert .provenTxs fresh) database).1 = .ok (setRowId .provenTxs (takeId .provenTxs database).1 fresh) := replied
    rw [reply]
    refine .inr ⟨rfl, fun key other here same => ?_, takeId_positive ids .provenTxs, rfl, put⟩
    have rejected : matchesProvenTxPartial other { txid := some fresh.txid } = false := one key other here nofun
    rw [matchesProvenTx_txid.mpr same] at rejected
    cases rejected

theorem completeReqScope_resolves (owned : RowsOwned database.records) (ids : IdsFromOne database) {args row} (stored : database.rows .provenTxReqs (.id args.provenTxReqId) = some row) :
    (completeReqScope now args (ofApi row)).Resolves (callAlone hash) database fun result after =>
      (result.2.1 = false ∧ after = database ∧ ∃ key proven, database.rows .provenTxs key = some proven ∧ proven.txid = args.txid) ∨
        (result.2.1 = true ∧ (∀ key other, database.rows .provenTxs key = some other → other.txid ≠ args.txid) ∧ result.1.txid = args.txid ∧
          0 < result.1.provenTxId ∧ CompletedBy args.provenTxReqId row.notify.eraseDups result.1.provenTxId result.2.2 ∧
          ProofLinked after.rows args.provenTxReqId row.notify.eraseDups result.1) := by
  refine .bind ((findOrInsertProvenTx_resolves owned ids (newProvenTx args (ofApi row)) rfl).mono fun result middle ends => ?_)
  obtain ⟨proven, isNew⟩ := result
  rcases ends with ⟨rfl, rfl, key, here, same⟩ | ⟨rfl, absent, positive, same, put⟩
  · exact .done (.inl ⟨rfl, rfl, key, proven, here, same⟩)
  · have completed : CompletedBy args.provenTxReqId row.notify.eraseDups proven.provenTxId
        { setStatus now .completed (ofApi row) with provenTxId := some proven.provenTxId } := by
      refine ⟨?_, rfl, rfl, ?_⟩
      · have own := owned.rows .provenTxReqs _ row stored
        exact (setStatus_id now _ _).trans (RowKey.id.inj own)
      · exact setStatus_notify now _ _
    have middleOwned : middle.rows.Owned := by
      rw [put]
      exact @TableRows.Owned.put _ .provenTxs owned.rows proven
    have proof : middle.rows .provenTxs (.id proven.provenTxId) = some proven := by
      rw [put]
      exact @put_same database.rows .provenTxs proven
    have request : middle.rows .provenTxReqs (.id args.provenTxReqId) = some row := by
      rw [put, put_other (by simp)]
      exact stored
    refine .bind ((updateDynamics_completed middleOwned positive proof request completed).mono fun _ after ⟨linked, _⟩ => .done ?_)
    exact .inr ⟨rfl, absent, same, positive, completed, linked⟩

theorem ProofLinked.recorded {rows id notify proven txid}
    (linked : ProofLinked rows id notify proven) (same : proven.txid = txid) (notified : Notified proven.provenTxId notify rows) :
    ProofRecorded rows id txid := by
  obtain ⟨req, stored, completed⟩ := linked.request
  exact ⟨req, stored, completed.status, _, proven, linked.proof, same, completed.linked, completed.notify ▸ notified⟩

theorem notifyTransactionsOfProof_resolves {id notify proven req}
    (positive : 0 < proven.provenTxId) (linked : ProofLinked database.rows id notify proven) (completed : CompletedBy id notify proven.provenTxId req) :
    (notifyTransactionsOfProof now req.notify proven.provenTxId req).Resolves (callAlone hash) database fun _ after =>
      ProofLinked after.rows id notify proven ∧ Notified proven.provenTxId notify after.rows := by
  rw [completed.notify]
  unfold notifyTransactionsOfProof
  split
  · next none =>
    refine .done ⟨linked, fun id member => ?_⟩
    rw [none] at member
    cases member
  · apply Program.Resolves.bind
    intro noted middle ran
    have ends := @notifyEachOfProof_ends hash now database proven.provenTxId notify [] req linked.owned (fun _ member => by cases member)
    unfold Program.Ends at ends
    rw [ran, List.append_nil] at ends
    obtain ⟨notified, notifies, same⟩ := ends
    obtain ⟨history, rfl⟩ := same noted rfl
    have kept := linked.notifies notifies
    obtain ⟨existing, stored, _⟩ := kept.request
    have noted : CompletedBy id notify proven.provenTxId { req with history } := ⟨completed.id, completed.status, completed.linked, completed.notify⟩
    refine .bind ((updateDynamics_completed kept.owned positive kept.proof stored noted).mono fun _ after ⟨last, same⟩ => .done ⟨last, ?_⟩)
    intro other member tx here
    rw [same] at here
    exact notified other member tx here

theorem updateProvenTxReqWithNewProvenTx_resolves (owned : RowsOwned database.records) (ids : IdsFromOne database)
    (args : UpdateProvenTxReqWithNewProvenTxArgs) :
    (updateProvenTxReqWithNewProvenTx now args).Resolves (callAlone hash) database fun _ after =>
      ∃ req, database.rows .provenTxReqs (.id args.provenTxReqId) = some req ∧
        ((AwaitsProof database.rows req args.txid ∧ ProofRecorded after.rows args.provenTxReqId args.txid) ∨
          (¬ AwaitsProof database.rows req args.txid ∧ after = database)) := by
  refine .bind (fromStorageId_resolves owned fun row stored => ?_)
  dsimp only
  cases linked : truthyId (ofApi row).provenTxId with
  | some provenTxId =>
    refine .bind (find_resolves owned rfl fun found _ => .bind (verifyOne_resolves fun _ _ => .done ⟨row, stored, .inr ⟨fun awaits => ?_, rfl⟩⟩))
    have none : truthyId (ofApi row).provenTxId = none := awaits.1
    rw [linked] at none
    cases none
  | none =>
    refine .bind ((completeReqScope_resolves owned ids stored).mono fun result middle ends => ?_)
    obtain ⟨proven, isNew, completed⟩ := result
    rcases ends with ⟨new, rfl, key, other, here, same⟩ | ⟨new, absent, same, positive, completes, done⟩
    · cases new
      exact .done ⟨row, stored, .inr ⟨fun awaits => awaits.2 key other here same, rfl⟩⟩
    · cases new
      refine .bind ((notifyTransactionsOfProof_resolves positive done completes).mono fun _ after ⟨last, notified⟩ => .done ?_)
      exact ⟨row, stored, .inl ⟨⟨linked, absent⟩, last.recorded same notified⟩⟩

/-- Once the call has returned, the proof is recorded exactly if the request awaited it, or if
it was recorded already. -/
theorem proof_recorded_iff (hash : ScriptHash) (now : Clock) (database : Database) (owned : RowsOwned database.records) (ids : IdsFromOne database)
    (args : UpdateProvenTxReqWithNewProvenTxArgs) {result : UpdateProvenTxReqWithNewProvenTxResult} {after : Database}
    (returned : (perform hash (updateProvenTxReqWithNewProvenTx now args)).run (exec hash) database = (.ok result, after)) :
    ProofRecorded after.rows args.provenTxReqId args.txid ↔
      (∃ req, database.rows .provenTxReqs (.id args.provenTxReqId) = some req ∧ AwaitsProof database.rows req args.txid) ∨
        ProofRecorded database.rows args.provenTxReqId args.txid := by
  rw [perform_run] at returned
  obtain ⟨req, stored, ⟨awaits, recorded⟩ | ⟨linked, same⟩⟩ := updateProvenTxReqWithNewProvenTx_resolves owned ids args result after returned
  · exact ⟨fun _ => .inl ⟨req, stored, awaits⟩, fun _ => recorded⟩
  · rw [same]
    refine ⟨.inr, fun cases => cases.elim (fun ⟨other, here, awaits⟩ => ?_) id⟩
    rw [stored] at here
    cases here
    exact (linked awaits).elim

end

/-- A request with a transaction to notify, both waiting for the proof. -/
def unprovenReq : Database where
  records := withRow .provenTxReqs (sampleReq 1 [1]) (withRow .transactions { sampleSending with status := .unproven } ∅)
  idBlocks _ := none

def arrivedProof : UpdateProvenTxReqWithNewProvenTxArgs where
  provenTxReqId := 1
  txid := "t"
  height := 7
  index := 0
  blockHash := "b"
  merkleRoot := "m"
  merklePath := []

theorem unprovenReq_owned : RowsOwned unprovenReq.records :=
  withRow_owned _ _ (withRow_owned _ _ fun _ _ _ stored => by cases stored)

theorem proof_recorded_sample :
    ∃ result after, (perform noHash (updateProvenTxReqWithNewProvenTx (noonClock true) arrivedProof)).run (exec noHash) unprovenReq = (.ok result, after) ∧
      ProofRecorded after.rows 1 "t" := by
  obtain ⟨result, after, returned⟩ :
      ∃ result after, (perform noHash (updateProvenTxReqWithNewProvenTx (noonClock true) arrivedProof)).run (exec noHash) unprovenReq = (.ok result, after) := by
    rw [perform_run]
    exact ⟨_, _, rfl⟩
  have none : IdsFromOne unprovenReq := fun _ _ held => by cases held
  refine ⟨result, after, returned, (proof_recorded_iff noHash (noonClock true) unprovenReq unprovenReq_owned none arrivedProof returned).mpr (.inl ?_)⟩
  refine ⟨sampleReq 1 [1], rfl, rfl, fun key proven here => ?_⟩
  have absent : unprovenReq.rows .provenTxs key = Option.none := by
    simp [Database.rows, unprovenReq, withRow_other]
  rw [absent] at here
  cases here

/-- The transaction of a first call is committed, its notifications are not sent. -/
def interruptedProof : Database :=
  ((completeReqScope (noonClock true) arrivedProof (ofApi (sampleReq 1 [1]))).run (callAlone noHash) unprovenReq).2

/-- The repeated call returns, and the transaction stays without its proof. -/
theorem interrupted_unrecorded :
    ∃ result after, (perform noHash (updateProvenTxReqWithNewProvenTx (noonClock true) arrivedProof)).run (exec noHash) interruptedProof = (.ok result, after) ∧
      ¬ ProofRecorded after.rows 1 "t" := by
  simp only [perform_run]
  refine ⟨_, interruptedProof, rfl, fun ⟨req, stored, _, _, _, _, _, _, notified⟩ => ?_⟩
  cases stored
  have completed := (notified 1 (.head _) { sampleSending with status := .unproven } rfl).1
  cases completed

end WalletToolbox

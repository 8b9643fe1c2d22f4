import WalletToolbox.Proofs.BroadcastCalls
import WalletToolbox.Proofs.RequestLists
import WalletToolbox.Proofs.StatusCalls

/-! What deliveries, publications and proofs come to. A call that opens a request writes
all its transactions before it ends; the request and its transactions correspond then. -/

namespace WalletToolbox
open Async StorageRocksDb BroadcastStorageAdapter EntityProvenTxReq StorageProvider BroadcastConsumer

section
variable {hash : ScriptHash} {call : BroadcastCall} {past : List (Event storage)} {store : Interrupted} {α : Type}
  {post : List (Event storage) → Except WalletError α → Interrupted → Prop}

theorem call_guarded {op post}
    (completes : ∀ current, (broadcastContract hash call).rely past store current → Permitted hash call past op current →
      Promised call past op current ∧
        post (past ++ [⟨op, (execInterrupted hash op current).1⟩]) (execInterrupted hash op current).1 (execInterrupted hash op current).2) :
    op.await.Guarded (execInterrupted hash) (broadcastContract hash call) post past store := by
  intro current relied permitted
  obtain ⟨promised, holds⟩ := completes current relied permitted
  refine ⟨promised, ?_⟩
  revert holds
  generalize past ++ [(⟨op, (execInterrupted hash op current).1⟩ : Event storage)] = more
  cases (execInterrupted hash op current).1 with
  | ok _ => exact id
  | error _ => exact id

theorem quiet_opened (quiet : QuietCall op) (reply) :
    openedBy call (past ++ [⟨op, reply⟩]) = openedBy call past := by
  rw [openedBy_append]
  cases op with
  | find => rfl
  | allocateChangeInput => exact quiet.elim
  | insert => rfl
  | update table =>
    cases table with
    | outputs => rfl
    | _ => exact quiet.elim

theorem quietCalls_guarded {program : StorageM α} {good : Except WalletError α → Prop} (uses : program.Uses QuietCall)
    (settles : program.Settles (fun _ outcome => good outcome) past)
    (ends : ∀ more outcome after, good outcome → openedBy call more = openedBy call past → post more outcome after) :
    program.Guarded (execInterrupted hash) (broadcastContract hash call) post past store := by
  induction program generalizing past store with
  | done _ | fail _ => exact ends _ _ _ settles rfl
  | await op next ih =>
    intro current relied permitted
    refine ⟨quiet_promised uses.1, ih _ (uses.2 _) (settles _) fun more outcome after holds same => ?_⟩
    exact ends more outcome after holds (same.trans (quiet_opened uses.1 _))

/-- A call has the request open, with these transactions left, and has given it the status. -/
structure Phase (call : BroadcastCall) (id : Nat) (status : ProvenTxReqStatus) (rest : List Nat) (past : List (Event storage)) (store : Interrupted) :
    Prop where
  opened : openedBy call past = some ⟨id, rest⟩
  status : ∃ row : Versioned TableProvenTxReq, store.database.records.row .provenTxReqs (.id id) = some row ∧ row.value.status = status

variable {id : Nat} {status : ProvenTxReqStatus} {rest : List Nat}

theorem Phase.disturbed (phase : Phase call id status rest past store) (remains : rest ≠ [])
    (relied : (broadcastContract hash call).rely past store current) : Phase call id status rest past current := by
  obtain ⟨row, stored, is⟩ := phase.status
  exact ⟨phase.opened, row, (relied.2.2 _ phase.opened remains).1.trans stored, is⟩

theorem Phase.quiet {op} (phase : Phase call id status rest past store) (quiet : QuietCall op) (owned : RowsOwned store.database.records) :
    Phase call id status rest (past ++ [⟨op, (execInterrupted hash op store).1⟩]) (execInterrupted hash op store).2 := by
  obtain ⟨row, stored, is⟩ := phase.status
  have kept := (@quiet_keeps hash store op quiet owned).1
  exact ⟨(quiet_opened quiet _).trans phase.opened, row, (kept.requests _).trans stored, is⟩

theorem TransactionsOpen.congr (open_ : TransactionsOpen before ids)
    (same : ∀ id ∈ ids, after.row .transactions (.id id) = before.row .transactions (.id id)) : TransactionsOpen after ids := by
  intro id member
  obtain ⟨nonzero, tx, stored, rest⟩ := open_ id member
  exact ⟨nonzero, tx, (same id member).trans stored, rest⟩

theorem TransactionsOpen.disturbed (phase : Phase call id status rest past store)
    (open_ : TransactionsOpen store.database.records rest) (relied : (broadcastContract hash call).rely past store current) :
    TransactionsOpen current.database.records rest := by
  intro other member
  obtain ⟨_, transactions⟩ := relied.2.2 _ phase.opened (List.ne_nil_of_mem member)
  exact open_.congr transactions other member

theorem TransactionsOpen.quiet {op} (open_ : TransactionsOpen store.database.records rest) (quiet : QuietCall op)
    (owned : RowsOwned store.database.records) : TransactionsOpen (execInterrupted hash op store).2.database.records rest :=
  open_.congr fun _ _ => (@quiet_keeps hash store op quiet owned).1.transactions _

theorem Phase.written {first txStatus changes} (phase : Phase call id status (first :: rest) past store)
    (fresh : first ∉ rest) (keeps : changes.transactionId = none) (sets : changes.status = some txStatus) (fits : corresponds status txStatus)
    (owned : RowsOwned store.database.records) (permitted : Permitted hash call past (.update .transactions first changes) store) :
    Promised call past (.update .transactions first changes) store ∧
      ∃ count, (execInterrupted hash (.update .transactions first changes) store).1 = .ok count ∧
        Phase call id status rest (past ++ [⟨.update .transactions first changes, (execInterrupted hash (.update .transactions first changes) store).1⟩])
          (execInterrupted hash (.update .transactions first changes) store).2 ∧
        (TransactionsOpen store.database.records (first :: rest) →
          TransactionsOpen (execInterrupted hash (.update .transactions first changes) store).2.database.records rest) := by
  obtain ⟨row, stored, is⟩ := phase.status
  refine ⟨⟨keeps, _, txStatus, row, phase.opened, .head _, stored, sets, is ▸ fits⟩, ?_⟩
  have succeeds := permitted.1 _ phase.opened (List.cons_ne_nil _ _)
  obtain ⟨_, requests, others⟩ := @transaction_written hash store first changes keeps owned
  cases ran : (execInterrupted hash (.update .transactions first changes) store).1 with
  | error _ =>
    unfold Succeeds at succeeds
    rw [ran] at succeeds
    exact succeeds.elim
  | ok count =>
    refine ⟨count, rfl, ⟨?_, row, (requests _).trans stored, is⟩, fun open_ => ?_⟩
    · rw [openedBy_append, phase.opened]
      have left : (first :: rest).filter (· ≠ first) = rest := by
        rw [List.filter_cons_of_neg (by simp)]
        exact List.filter_eq_self.mpr fun other member => decide_eq_true fun same => fresh (same ▸ member)
      show some (⟨id, (first :: rest).filter (· ≠ first)⟩ : Opened) = _
      rw [left]
    · intro other member
      have different : other ≠ first := fun same => fresh (same ▸ member)
      have still : TransactionsOpen store.database.records rest := fun another also => open_ another (.tail _ also)
      exact still.congr (fun another also => others another fun same => fresh (same ▸ also)) other member

theorem find_transaction {id} (owned : RowsOwned database.records)
    (stored : database.records.row .transactions (.id id) = some row)
    (found : (callAlone hash (.find .transactions { wanted := { transactionId := some id }, noRawTx := true }) database).1 = .ok rows) :
    rows = [{ row.value with rawTx := none, inputBEEF := none }] := by
  have named : row.value.transactionId = id := by
    have key := owned .transactions _ row stored
    simpa [rowKey] using key
  have matched : matchesTransactionPartial row.value { transactionId := some id } = true := by
    simp [matchesTransactionPartial, eq, eqOptional, named]
  have ran : (callAlone hash (.find .transactions { wanted := { transactionId := some id }, noRawTx := true }) database).1 =
      .ok ((((database.records.row .transactions (.id id)).map Versioned.value).filter
        (matchesTransactionPartial · { transactionId := some id })).toList.map fun row => { row with rawTx := none, inputBEEF := none }) := rfl
  rw [ran, stored] at found
  have kept : (some row.value).filter (matchesTransactionPartial · { transactionId := some id }) = some row.value :=
    Option.filter_eq_some_iff.mpr ⟨rfl, matched⟩
  have same := Except.ok.inj found
  simp only [Option.map_some, kept, Option.toList_some, List.map_cons, List.map_nil] at same
  exact same.symm

theorem Phase.call_guarded {op post}
    (phase : Phase call id status rest past store) (open_ : TransactionsOpen store.database.records rest) (remains : rest ≠ []) (quiet : QuietCall op)
    (ends : ∀ more reply current after, RowsOwned current.database.records → TransactionsOpen current.database.records rest →
      Succeeds hash op current → (execInterrupted hash op current).1 = .ok reply → Phase call id status rest more after →
      TransactionsOpen after.database.records rest → post more (.ok reply) after) :
    op.await.Guarded (execInterrupted hash) (broadcastContract hash call) post past store := by
  apply WalletToolbox.call_guarded
  intro current relied permitted
  have owned := relied.1
  refine ⟨quiet_promised quiet, ?_⟩
  have succeeds := permitted.1 _ phase.opened remains
  have here := open_.disturbed phase relied
  have next := @Phase.quiet hash _ _ _ _ _ _ _ (phase.disturbed remains relied) quiet owned
  have still := @TransactionsOpen.quiet hash _ _ _ here quiet owned
  cases ran : (execInterrupted hash op current).1 with
  | error _ =>
    unfold Succeeds at succeeds
    rw [ran] at succeeds
    cases op <;> exact succeeds.elim
  | ok reply =>
    rw [ran] at next
    exact ends _ reply current _ owned here succeeds ran next still

theorem releaseInputs_guarded {inputs post}
    (numbered : ∀ input ∈ inputs, input.outputId ≠ 0) (phase : Phase call id status rest past store)
    (open_ : TransactionsOpen store.database.records rest) (remains : rest ≠ [])
    (ends : ∀ more after, Phase call id status rest more after → TransactionsOpen after.database.records rest → post more (.ok ()) after) :
    (StorageProvider.releaseInputs inputs).Guarded (execInterrupted hash) (broadcastContract hash call) post past store := by
  induction inputs generalizing past store with
  | nil => exact ends _ _ phase open_
  | cons input others ih =>
    have nonzero : ¬ input.outputId < 1 := by
      have := numbered input (.head _)
      omega
    unfold StorageProvider.releaseInputs verifyId
    rw [if_neg nonzero, Program.pure_eq, Program.done_bind]
    refine Program.Guarded.bind (phase.call_guarded open_ remains trivial ?_)
    intro more reply current after _ _ _ _ phase open_
    exact ih (fun other member => numbered other (.tail _ member)) phase open_

theorem updateTransactionStatus_guarded {first txStatus post}
    (phase : Phase call id status (first :: rest) past store) (fresh : first ∉ rest) (settable : txStatus ∈ [.unproven, .failed, .sending])
    (fits : corresponds status txStatus) (open_ : TransactionsOpen store.database.records (first :: rest))
    (ends : ∀ more after, Phase call id status rest more after → TransactionsOpen after.database.records rest → post more (.ok ()) after) :
    (updateTransactionStatus txStatus (some first) none none).Guarded (execInterrupted hash) (broadcastContract hash call) post
      past store := by
  have nonzero : truthyId (some first) = some first := by simp [truthyId, (open_ first (.head _)).1]
  have named : ¬ (truthyId (some first) = none ∧ (truthyId none = none ∨ truthyText none = none)) := by simp [nonzero]
  unfold updateTransactionStatus
  rw [if_neg named, nonzero]
  refine Program.Guarded.bind (phase.call_guarded open_ (List.cons_ne_nil _ _) trivial ?_)
  intro more rows current after owned here _ ran phase open_
  obtain ⟨_, tx, stored, unsettled, unproven⟩ := here first (.head _)
  have found := find_transaction owned stored (execInterrupted_ok ran).1
  subst found
  have free : guardStatus txStatus { tx.value with rawTx := none, inputBEEF := none } = .ok () := by
    simp only [List.mem_cons, List.not_mem_nil, or_false, not_or] at unsettled
    unfold guardStatus
    rw [if_neg (by simp [unsettled.1, unproven]), if_neg (by simp [unsettled.2])]
  have same : tx.value.transactionId = first := by
    have key : rowKey .transactions tx.value = .id first := owned .transactions _ tx stored
    simpa [rowKey] using key
  have writes : ∀ more after, Phase call id status (first :: rest) more after → TransactionsOpen after.database.records (first :: rest) →
      (StorageCall.await (.update .transactions tx.value.transactionId { status := some txStatus }) >>= fun _ => pure ()).Guarded
        (execInterrupted hash) (broadcastContract hash call) post more after := by
    intro more after phase open_
    rw [same]
    refine Program.Guarded.bind (call_guarded ?_)
    intro current relied permitted
    have remains : first :: rest ≠ [] := List.cons_ne_nil _ _
    obtain ⟨promised, count, ran, next, still⟩ :=
      @Phase.written hash _ _ _ _ _ _ _ _ _ (phase.disturbed remains relied) fresh rfl rfl fits relied.1 permitted
    refine ⟨promised, ?_⟩
    rw [ran] at next ⊢
    exact ends _ _ next (still (open_.disturbed phase relied))
  show (Program.ofExcept (guardStatus txStatus { tx.value with rawTx := none, inputBEEF := none }) >>= _).Guarded _ _ _ _ _
  rw [free, Program.ofExcept_ok_bind]
  simp only [List.mem_cons, List.not_mem_nil, or_false] at settable
  rcases settable with rfl | rfl | rfl
  · exact writes _ _ phase open_
  · apply Program.Guarded.bind
    refine Program.Guarded.bind (phase.call_guarded open_ (List.cons_ne_nil _ _) trivial ?_)
    intro more inputs current after _ _ succeeds ran phase open_
    have numbered : ∀ input ∈ inputs, input.outputId ≠ 0 := by
      unfold Succeeds at succeeds
      rw [ran] at succeeds
      exact succeeds
    exact releaseInputs_guarded numbered phase open_ (List.cons_ne_nil _ _) writes
  · exact writes _ _ phase open_

theorem updateTransactionsStatus_guarded {txStatus post}
    (phase : Phase call id status rest past store) (once : rest.Nodup) (settable : txStatus ∈ [.unproven, .failed, .sending])
    (fits : corresponds status txStatus) (open_ : TransactionsOpen store.database.records rest)
    (ends : ∀ more after, Phase call id status [] more after → post more (.ok ()) after) :
    (updateTransactionsStatus rest txStatus).Guarded (execInterrupted hash) (broadcastContract hash call) post past store := by
  induction rest generalizing past store with
  | nil => exact ends _ _ phase
  | cons first others ih =>
    obtain ⟨fresh, once⟩ := List.nodup_cons.mp once
    refine Program.Guarded.bind (updateTransactionStatus_guarded phase fresh settable fits open_ ?_)
    exact fun more after phase open_ => ih phase once open_

theorem request_written_ok {id count changes existing}
    (keeps : changes.provenTxReqId = none) (owned : RowsOwned store.database.records)
    (stored : store.database.records.row .provenTxReqs (.id id) = some existing)
    (ran : (execInterrupted hash (.update .provenTxReqs id changes) store).1 = .ok count) :
    ∃ next : Versioned TableProvenTxReq,
      (execInterrupted hash (.update .provenTxReqs id changes) store).2.database.records.row .provenTxReqs (.id id) = some next ∧
        next.value = changes.spread existing.value := by
  have after := (execInterrupted_ok ran).2
  rcases @callAlone_update hash store.database .provenTxReqs id changes with ⟨absent, _⟩ | ⟨other, found, rows⟩
  · cases stored.symm.trans absent
  · cases stored.symm.trans found
    have own : rowKey .provenTxReqs (updatedRow hash .provenTxReqs changes existing.value) = .id id := by
      have key := owned .provenTxReqs _ existing stored
      simpa [rowKey, updatedRow, ProvenTxReqUpdate.spread, keeps] using key
    have now := @withRow_same .provenTxReqs (updatedRow hash .provenTxReqs changes existing.value) store.database.records
    rw [own] at now
    rw [after]
    exact ⟨_, (rows .provenTxReqs (.id id)).trans now, rfl⟩

theorem not_opened_of_error (error : WalletError) :
    openedBy call (past ++ [(⟨op, .error error⟩ : Event storage)]) = openedBy call past := by
  rw [openedBy_append]
  cases op with
  | update table => cases table <;> rfl
  | _ => rfl

/-- The write that opens a request. -/
theorem openRequest_guarded {noted post}
    (opening : opensRequest call (dynamics noted) = true) (closed : openedBy call past = none)
    (settles : (∃ delivery, call = .deliver delivery) ∨ noted.status = .completed)
    (earned : ∀ delivery, call = .deliver delivery → noted.status = .unmined → delivery.succeeded)
    (failed : ∀ more error after, openedBy call more = none → post more (.error error) after)
    (ends : ∀ more count after, Phase call noted.provenTxReqId noted.status noted.notify more after →
      ((∃ delivery, call = .deliver delivery) → TransactionsOpen after.database.records noted.notify) → post more (.ok count) after) :
    (updateStorageDynamicProperties noted).Guarded (execInterrupted hash) (broadcastContract hash call) post past store := by
  apply call_guarded
  intro current relied permitted
  obtain ⟨_, may⟩ := permitted
  obtain ⟨row, stored, members, fits⟩ := may
  refine ⟨⟨rfl, ?_, ⟨_, rfl⟩, fun delivery is unmined => earned delivery is (Option.some.inj unmined), noted.status, rfl, ?_⟩, ?_⟩
  · intro opened is
    cases closed.symm.trans is
  · intro another there
    cases stored.symm.trans there
    refine ⟨?_, fun either => ?_⟩
    · rcases settles with ⟨delivery, rfl⟩ | completed
      · exact stays_of_not fits.1
      · rw [completed]
        cases row.value.status <;> simp [Stays]
    · rw [closed, opening] at either
      simp at either
  · cases ran : (execInterrupted hash (.update .provenTxReqs noted.provenTxReqId (dynamics noted)) current).1 with
    | error error => exact failed _ _ _ ((not_opened_of_error error).trans closed)
    | ok count =>
      obtain ⟨_, transactions, _⟩ := @request_written hash current noted.provenTxReqId (dynamics noted) rfl relied.1
      obtain ⟨next, here, is⟩ := @request_written_ok hash _ _ _ _ _ rfl relied.1 stored ran
      refine ends _ _ _ ⟨?_, next, here, by rw [is]; rfl⟩ ?_
      · rw [openedBy_append, closed]
        show (if opensRequest call (dynamics noted) then _ else _) = _
        rw [if_pos opening]
        rfl
      · rintro ⟨delivery, rfl⟩
        have known := of_decide_eq_true opening
        intro id member
        obtain ⟨nonzero, tx, has, rest⟩ := fits.2.2 known id ((members id).mp member)
        exact ⟨nonzero, tx, (transactions _).trans has, rest⟩

theorem writeRequest_guarded {noted post}
    (silent : opensRequest call (dynamics noted) = false) (closed : openedBy call past = none)
    (queued : (∃ delivery, call = .deliver delivery) ∧ noted.status = .unknown ∨ (∃ reqs, call = .publish reqs) ∧ noted.status = .sending)
    (ends : ∀ more outcome after, openedBy call more = none → post more outcome after) :
    (updateStorageDynamicProperties noted).Guarded (execInterrupted hash) (broadcastContract hash call) post past store := by
  apply call_guarded
  intro current relied permitted
  obtain ⟨_, may⟩ := permitted
  obtain ⟨row, stored, members, fits⟩ := may
  refine ⟨⟨rfl, ?_, ⟨_, rfl⟩, ?_, noted.status, rfl, ?_⟩, ?_⟩
  · intro opened is
    cases closed.symm.trans is
  · intro delivery is unmined
    have unmined := Option.some.inj unmined
    rcases queued with ⟨_, unknown⟩ | ⟨_, sending⟩
    · cases unmined.symm.trans unknown
    · cases unmined.symm.trans sending
  · intro another there
    cases stored.symm.trans there
    rcases queued with ⟨⟨delivery, rfl⟩, unknown⟩ | ⟨⟨reqs, rfl⟩, sending⟩
    · have other := fits.2.1 (by simp [dynamics, unknown])
      have unsettled := fits.1
      rw [unknown]
      refine ⟨stays_of_not unsettled, fun _ tx agrees => ?_⟩
      revert agrees other unsettled
      cases row.value.status <;> cases tx <;> decide
    · rw [sending]
      have waiting : row.value.status ∈ [.unsent, .sending] := fits
      refine ⟨stays_of_not ?_, fun _ tx agrees => ?_⟩
      · revert waiting
        cases row.value.status <;> decide
      · revert agrees waiting
        cases row.value.status <;> cases tx <;> decide
  · apply ends
    rw [openedBy_append, closed]
    cases (execInterrupted hash (.update .provenTxReqs noted.provenTxReqId (dynamics noted)) current).1 with
    | error _ => rfl
    | ok _ =>
      show (if opensRequest call (dynamics noted) then _ else _) = _
      rw [if_neg (by rw [silent]; exact Bool.false_ne_true)]

end

def Broadcast (id : Nat) (store : Interrupted) : Prop :=
  ∃ row : Versioned TableProvenTxReq, store.database.records.row .provenTxReqs (.id id) = some row ∧ row.value.status ∈ [.unmined, .completed]

def NothingOpen (call : BroadcastCall) (past : List (Event storage)) : Prop := ∀ opened, openedBy call past = some opened → opened.rest = []

theorem closed_of_none (none : openedBy call past = none) : NothingOpen call past := by
  intro opened is
  cases none.symm.trans is

theorem statusesOf_spec (record : BroadcastAttemptRecord) :
    match (statusesOf record).2 with
    | none => (statusesOf record).1 = .unknown ∧ record.outcome.succeeded = false
    | some txStatus => (statusesOf record).1 ≠ .unknown ∧ txStatus ∈ [.unproven, .failed, .sending] ∧
        corresponds (statusesOf record).1 txStatus ∧
        ((statusesOf record).1 = .unmined ↔ record.outcome.succeeded = true) := by
  unfold statusesOf BroadcastProviderOutcome.succeeded
  generalize hasDoubleSpendResult record = spent
  generalize record.outcome = outcome
  cases outcome with
  | rejectedTerminal => cases spent <;> decide
  | _ => decide +revert

section
variable {hash : ScriptHash} {past : List (Event storage)} {store : Interrupted} {now : Clock} {delivery : BroadcastDelivery}
  {record : BroadcastAttemptRecord}

theorem recordOutcome_guarded
    (outcome : delivery.outcome = some record.outcome) (closed : openedBy (.deliver delivery) past = none) (once : req.notify.Nodup)
    (ends : ∀ more result after, NothingOpen (.deliver delivery) more →
      (result = .ok () → record.outcome.succeeded → Broadcast req.provenTxReqId after) → post more result after) :
    (recordOutcome now record req).Guarded (execInterrupted hash) (broadcastContract hash (.deliver delivery)) post
      past store := by
  have spec := statusesOf_spec record
  have sets : (withOutcome now record req).status = (statusesOf record).1 := by
    simp [withOutcome]
  have notifies : (withOutcome now record req).notify = req.notify := by simp [withOutcome]
  have same : (withOutcome now record req).provenTxReqId = req.provenTxReqId := by
    simp [withOutcome]
  unfold recordOutcome
  apply Program.Guarded.bind
  cases sent : (statusesOf record).2 with
  | none =>
    rw [sent] at spec
    obtain ⟨unknown, unsuccessful⟩ := spec
    refine writeRequest_guarded ?_ closed (.inl ⟨⟨delivery, rfl⟩, sets.trans unknown⟩) fun more result after none => ?_
    · simp [opensRequest, dynamics, sets, unknown]
    · have fails : record.outcome.succeeded → Broadcast req.provenTxReqId after := by
        intro succeeds
        rw [unsuccessful] at succeeds
        cases succeeds
      cases result with
      | error _ => exact ends _ _ _ (closed_of_none none) fun _ => fails
      | ok _ => exact ends _ _ _ (closed_of_none none) fun _ => fails
  | some txStatus =>
    rw [sent] at spec
    obtain ⟨known, settable, fits, unmined⟩ := spec
    refine openRequest_guarded ?_ closed (.inl ⟨delivery, rfl⟩) ?_ ?_ ?_
    · simp [opensRequest, dynamics, sets, known]
    · intro other is earned
      cases is
      unfold BroadcastDelivery.succeeded
      rw [outcome]
      exact unmined.mp (sets ▸ earned)
    · exact fun more error after none => ends _ _ _ (closed_of_none none) fun failed => by cases failed
    · intro more count after phase open_
      have once := notifies ▸ once
      refine updateTransactionsStatus_guarded phase once settable (sets ▸ fits) (open_ ⟨delivery, rfl⟩) fun last final phase => ?_
      refine ends _ _ _ (fun opened is => ?_) fun _ succeeds => ?_
      · cases phase.opened.symm.trans is
        rfl
      · obtain ⟨row, stored, is⟩ := phase.status
        refine ⟨row, same ▸ stored, ?_⟩
        rw [is, sets, unmined.mpr succeeds]
        exact .head _

theorem find_request {id : Nat}
    (found : (callAlone hash (.find .provenTxReqs { provenTxReqId := id }) database).1 = .ok rows) :
    ∀ req ∈ rows, ∃ row : Versioned TableProvenTxReq, database.records.row .provenTxReqs (.id id) = some row ∧ row.value = req :=
  findEntities_byId found

theorem recordBroadcastAttempt_guarded
    (message : delivery.payload = .ok record.message) (outcome : delivery.outcome = some record.outcome)
    (closed : openedBy (.deliver delivery) past = none)
    (ends : ∀ more result after, NothingOpen (.deliver delivery) more →
      (result = .ok () → record.outcome.succeeded → Broadcast record.message.provenTxReqId after) → post more result after) :
    (recordBroadcastAttempt now record).Guarded (execInterrupted hash) (broadcastContract hash (.deliver delivery)) post
      past store := by
  unfold recordBroadcastAttempt loadReq
  apply Program.Guarded.bind
  apply Program.Guarded.bind
  apply call_guarded
  intro current relied permitted
  refine ⟨trivial, ?_⟩
  have stays : ∀ reply, openedBy (.deliver delivery) (past ++ [⟨.find .provenTxReqs { provenTxReqId := record.message.provenTxReqId }, reply⟩]) = none :=
    fun reply => (quiet_opened (show QuietCall (.find .provenTxReqs _) from trivial) reply).trans closed
  have failed : ∀ more error after, openedBy (.deliver delivery) more = none → post more (.error error) after :=
    fun more error after none => ends _ _ _ (closed_of_none none) fun ok => by cases ok
  cases ran : (execInterrupted hash (.find .provenTxReqs { provenTxReqId := record.message.provenTxReqId }) current).1 with
  | error error => exact failed _ _ _ (stays _)
  | ok rows =>
    have known := find_request (execInterrupted_ok ran).1
    match rows, known with
    | [], _ => exact failed _ _ _ (stays _)
    | _ :: _ :: _, _ => exact failed _ _ _ (stays _)
    | [req], known =>
      obtain ⟨row, stored, is⟩ := known req (.head _)
      have same : req.provenTxReqId = record.message.provenTxReqId := by
        have key := relied.1 .provenTxReqs _ row stored
        rw [is] at key
        simpa [rowKey] using key
      have unchanged :=
        ((@quiet_keeps hash current (.find .provenTxReqs { provenTxReqId := record.message.provenTxReqId }) trivial relied.1).1.requests _).trans stored
      show (if _ then _ else _ : StorageM Unit).Guarded _ _ _ _ _
      split
      next skipped =>
        -- the request has a record of the message, or has been broadcast
        refine ends _ _ _ (closed_of_none (stays _)) fun _ succeeds => ⟨row, unchanged, ?_⟩
        rcases skipped with recorded | completed | unmined
        · apply permitted.2 record.message row message _ stored
          · rw [is]
            exact recorded
          · unfold BroadcastDelivery.succeeded
            rw [outcome]
            exact succeeds
        · rw [is, show req.status = .completed from completed]
          exact .tail _ (.head _)
        · rw [is, show req.status = .unmined from unmined]
          exact .head _
      next =>
        refine recordOutcome_guarded outcome (stays _) (nodup_eraseDups _) fun more result after closed holds => ends _ _ _ closed ?_
        exact fun ok succeeds => same ▸ holds ok succeeds

structure CallEnds (call : BroadcastCall) (past : List (Event storage)) (result : Except WalletError (Option Consumed)) (store : Interrupted) :
    Prop where
  closed : NothingOpen call past
  broadcast : ∀ delivery message consumed outcome, call = .deliver delivery → delivery.payload = .ok message → result = .ok (some consumed) →
    consumed.disposition = .ack → consumed.outcome = some outcome → outcome.succeeded → Broadcast message.provenTxReqId store

theorem broadcast_uses (merges : ∀ req, (options.mergeReqToBeef req).Uses QuietCall)
    (delivery) : (BroadcastConsumer.broadcast options delivery).Uses QuietCall := by
  refine Program.Uses.bind (.ofExcept _) fun message => Program.Uses.bind (.ofExcept _) fun _ => Program.Uses.bind ?_ fun req => ?_
  · refine Program.Uses.bind (Program.Uses.bind (await_uses trivial) fun rows => (verifyOneOrNone_uses rows).bind fun found => ?_) fun req => ?_
    · cases found <;> trivial
    · apply Program.Uses.ite
      · trivial
      · exact (merges req).bind fun _ => trivial
  · exact Program.Uses.bind (.ofExcept _) fun _ => Program.Uses.bind (.ofExcept _) fun _ => trivial

theorem broadcast_settles (options) (delivery) (past) :
    (BroadcastConsumer.broadcast options delivery).Settles (fun _ result => ∀ record, result = .ok record →
      delivery.payload = .ok record.message ∧ delivery.outcome = some record.outcome) past := by
  have failed : ∀ (error : WalletError) (record : BroadcastAttemptRecord), (.error error : Except WalletError BroadcastAttemptRecord) = .ok record →
      delivery.payload = .ok record.message ∧ delivery.outcome = some record.outcome := by
    intro error record is
    cases is
  unfold BroadcastConsumer.broadcast
  cases read : delivery.payload with
  | error error => exact fun record is => by cases is
  | ok message =>
    rw [Program.ofExcept_ok_bind]
    refine Program.Settles.seq (fun _ more _ => Program.Settles.seq (fun req more _ => ?_) fun error _ _ => ?_) fun error _ _ => ?_
    · refine Program.Settles.seq (fun _ more _ => ?_) fun error _ _ => ?_
      · cases answered : delivery.results with
        | error error => exact fun record is => by cases is
        | ok results =>
          rw [Program.ofExcept_ok_bind]
          intro record is
          cases is
          refine ⟨rfl, ?_⟩
          unfold BroadcastDelivery.outcome
          rw [read, answered]
      · exact fun record is => by cases is
    · exact fun record is => by cases is
    · exact fun record is => by cases is

theorem caught_cases (delivery) (outcome) (error) :
    (∃ disposition, disposition ≠ .ack ∧ caught delivery outcome error = .done ⟨outcome, disposition⟩) ∨
      ∃ thrown, caught delivery outcome error = .fail thrown := by
  unfold caught
  split
  · cases delivery.deadLetter with
    | error thrown => exact .inr ⟨thrown, rfl⟩
    | ok _ => exact .inl ⟨.term, by decide, rfl⟩
  · exact .inl ⟨.nak, by decide, rfl⟩

theorem settleOutcome_cases (delivery) (outcome) :
    (∃ disposition, settleOutcome delivery outcome = .done ⟨some outcome, disposition⟩) ∨
      ∃ thrown, settleOutcome delivery outcome = .fail thrown := by
  unfold settleOutcome
  split
  · split
    · cases delivery.deadLetter with
      | ok _ => exact .inl ⟨.term, rfl⟩
      | error error =>
        rcases caught_cases delivery (some outcome) error with ⟨disposition, _, is⟩ | failed
        · exact .inl ⟨disposition, is⟩
        · exact .inr failed
    · exact .inl ⟨.nak, rfl⟩
  · exact .inl ⟨.ack, rfl⟩

theorem caught_guarded (error) (closed : NothingOpen (.deliver delivery) past) :
    (caught delivery outcome error).Guarded (execInterrupted hash) (broadcastContract hash (.deliver delivery))
      (fun more result after => CallEnds (.deliver delivery) more (result.map some) after) past store := by
  rcases caught_cases delivery outcome error with ⟨disposition, different, is⟩ | ⟨thrown, is⟩
  · rw [is]
    refine ⟨closed, fun _ _ consumed _ _ _ same acked => ?_⟩
    cases same
    exact absurd acked different
  · rw [is]
    exact ⟨closed, fun _ _ _ _ _ _ same => by cases same⟩

theorem consume_guarded (merges : ∀ req, (options.mergeReqToBeef req).Uses QuietCall) :
    (consumeJetStreamMessage now options delivery).Guarded (execInterrupted hash) (broadcastContract hash (.deliver delivery))
      (fun more result after => CallEnds (.deliver delivery) more (result.map some) after) [] store := by
  apply Program.Guarded.bind
  apply Program.Guarded.settle
  refine quietCalls_guarded (broadcast_uses merges delivery) (broadcast_settles options delivery []) fun more result after read same => ?_
  have none : openedBy (.deliver delivery) more = none := same
  cases result with
  | error error => exact caught_guarded error (closed_of_none none)
  | ok record =>
    obtain ⟨message, outcome⟩ := read record rfl
    apply Program.Guarded.bind
    apply Program.Guarded.settle
    refine recordBroadcastAttempt_guarded message outcome none fun last result final closed recorded => ?_
    cases result with
    | error error => exact caught_guarded error closed
    | ok _ =>
      show (settleOutcome delivery record.outcome).Guarded _ _ _ _ _
      rcases settleOutcome_cases delivery record.outcome with ⟨disposition, is⟩ | ⟨thrown, is⟩
      · rw [is]
        refine ⟨closed, fun other given consumed _ same payload ran _ has succeeded => ?_⟩
        cases same
        cases ran
        cases has
        cases message.symm.trans payload
        exact recorded rfl succeeded
      · rw [is]
        exact ⟨closed, fun _ _ _ _ _ _ same => by cases same⟩

end

section
variable {hash : ScriptHash} {past : List (Event storage)} {store : Interrupted} {now : Clock}

theorem publish_guarded (all reqs) (publisher) (closed : openedBy (.publish all) past = none) :
    (TaskSendWaiting.publishWorkItemToBroadcastStream now publisher reqs).Guarded (execInterrupted hash) (broadcastContract hash (.publish all))
      (fun more _ _ => NothingOpen (.publish all) more) past store := by
  induction reqs generalizing past store with
  | nil => exact closed_of_none closed
  | cons reqApi rest ih =>
    unfold TaskSendWaiting.publishWorkItemToBroadcastStream
    dsimp only
    cases publisher.publishTxBroadcast (publisher.createMessage (ofApi reqApi)) with
    | error _ => exact closed_of_none closed
    | ok _ =>
      rw [Program.ofExcept_ok_bind]
      apply Program.Guarded.bind
      refine writeRequest_guarded rfl closed (.inr ⟨⟨all, rfl⟩, ?_⟩) fun more result after none => ?_
      · simp [TaskSendWaiting.queued]
      · cases result with
        | error _ => exact closed_of_none none
        | ok _ => exact ih none

/-- The transactions of a completed request. -/
theorem notifyEach_guarded {args id provenTxId ids req post}
    (phase : Phase (.prove args) id .completed ids past store) (once : ids.Nodup)
    (ends : ∀ more noted after, Phase (.prove args) id .completed [] more after → noted.provenTxReqId = req.provenTxReqId →
      noted.status = req.status → post more (.ok noted) after) :
    (notifyEachOfProof now provenTxId ids req).Guarded (execInterrupted hash) (broadcastContract hash (.prove args)) post
      past store := by
  induction ids generalizing past store req with
  | nil => exact ends _ _ _ phase rfl rfl
  | cons first rest ih =>
    obtain ⟨fresh, once⟩ := List.nodup_cons.mp once
    apply Program.Guarded.bind
    apply Program.Guarded.settle
    apply call_guarded
    intro current relied permitted
    obtain ⟨promised, count, ran, next, _⟩ :=
      @Phase.written hash _ _ _ _ _ _ _ _ _ (phase.disturbed (List.cons_ne_nil _ _) relied) fresh rfl rfl (by decide) relied.1 permitted
    refine ⟨promised, ?_⟩
    rw [ran] at next ⊢
    refine ih next once fun more noted after phase same status => ends more noted after phase ?_ ?_
    · simpa using same
    · simpa using status

theorem fromStorageId_quiet (id : Nat) : (fromStorageId id).Uses QuietCall := by
  refine Program.Uses.bind (await_uses trivial) fun rows => (verifyOneOrNone_uses rows).bind fun found => ?_
  cases found <;> trivial

theorem fromStorageId_settles (id : Nat) (past) :
    (fromStorageId id).Settles (fun _ result => ∀ req, result = .ok req → req.notify.Nodup) past := by
  refine Program.Settles.seq (fun rows _ _ => Program.Settles.seq (fun found _ _ => ?_) fun _ _ _ => ?_) fun _ _ _ => ?_
  · cases found with
    | none => exact fun req is => by cases is
    | some api =>
      intro req is
      cases is
      exact nodup_eraseDups _
  · exact fun req is => by cases is
  · exact fun req is => by cases is

theorem noteProof_guarded
    (phase : Phase (.prove args) noted.provenTxReqId .completed [] past store) (completed : noted.status = .completed) :
    (updateStorageDynamicProperties noted).Guarded (execInterrupted hash) (broadcastContract hash (.prove args))
      (fun more _ _ => NothingOpen (.prove args) more) past store := by
  have closed : NothingOpen (.prove args) past := by
    intro opened is
    cases phase.opened.symm.trans is
    rfl
  apply call_guarded
  intro current relied permitted
  obtain ⟨row, stored, is⟩ := phase.status
  obtain ⟨next, here, _, stays⟩ := relied.2.1 _ row stored
  rw [is] at stays
  refine ⟨⟨rfl, closed, ⟨_, rfl⟩, fun _ same => (by cases same), noted.status, rfl, fun another there => ?_⟩, ?_⟩
  · cases here.symm.trans there
    have same : next.value.status = .completed := stays
    rw [same, completed]
    exact ⟨.refl _, fun _ _ agrees => agrees⟩
  · have kept : ∀ reply, openedBy (.prove args) (past ++ [⟨.update .provenTxReqs noted.provenTxReqId (dynamics noted), reply⟩]) =
        some ⟨noted.provenTxReqId, []⟩ := by
      intro reply
      rw [openedBy_append, phase.opened]
      cases reply <;> rfl
    intro opened is
    cases (kept _).symm.trans is
    rfl

theorem notifyTransactions_guarded
    (phase : Phase (.prove args) req.provenTxReqId .completed req.notify past store) (once : req.notify.Nodup) (completed : req.status = .completed) :
    (notifyTransactionsOfProof now req.notify provenTxId req).Guarded (execInterrupted hash) (broadcastContract hash (.prove args))
      (fun more _ _ => NothingOpen (.prove args) more) past store := by
  unfold notifyTransactionsOfProof
  split
  next none =>
    intro opened is
    rw [none] at phase
    cases phase.opened.symm.trans is
    rfl
  next =>
    refine Program.Guarded.bind (notifyEach_guarded phase once fun more noted after phase same status => ?_)
    refine Program.Guarded.bind ((noteProof_guarded (same ▸ phase) (status.trans completed)).mono fun last result final closed => ?_)
    cases result with
    | error _ => exact closed
    | ok _ => exact closed

theorem prove_guarded (args : StorageProvider.UpdateProvenTxReqWithNewProvenTxArgs) :
    (updateProvenTxReqWithNewProvenTx now args).Guarded (execInterrupted hash) (broadcastContract hash (.prove args))
      (fun more _ _ => NothingOpen (.prove args) more) [] store := by
  apply Program.Guarded.bind
  refine quietCalls_guarded (fromStorageId_quiet _) (fromStorageId_settles _ _) fun more result after once same => ?_
  have unopened : openedBy (.prove args) more = none := same
  cases result with
  | error _ => exact closed_of_none unopened
  | ok req =>
    have once := once req rfl
    dsimp only
    split
    next =>
      have found : (StorageCall.await (.find .provenTxs { txid := some args.txid }) >>= fun rows => verifyOne rows >>= fun proven =>
          pure (⟨req.status, req.history, proven.provenTxId⟩ : StorageProvider.UpdateProvenTxReqWithNewProvenTxResult)).Uses QuietCall :=
        Program.Uses.bind (await_uses trivial) fun rows => (verifyOne_uses rows).bind fun _ => trivial
      exact quietCalls_guarded found (Program.settles_trivial _ _) fun last _ _ _ same => closed_of_none (same.trans unopened)
    next =>
      apply Program.Guarded.bind
      apply Program.Guarded.bind
      have stores := @findOrInsertProvenTx_uses QuietCall (newProvenTx args req) trivial trivial
      refine quietCalls_guarded stores (Program.settles_trivial _ _) fun last result after _ same => ?_
      have still := same.trans unopened
      cases result with
      | error _ => exact closed_of_none still
      | ok found =>
        obtain ⟨proven, isNew⟩ := found
        cases isNew with
        | false => exact closed_of_none still
        | true =>
          apply Program.Guarded.bind
          refine openRequest_guarded rfl still (.inr rfl) (fun _ is => by cases is) (fun _ _ _ none => closed_of_none none) ?_
          intro last count after phase _
          refine Program.Guarded.bind ((notifyTransactions_guarded phase ?_ rfl).mono fun _ result _ closed => ?_)
          · simpa using once
          · cases result with
            | error _ => exact closed
            | ok _ => exact closed

end
end WalletToolbox

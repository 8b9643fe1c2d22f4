import WalletToolbox.Proofs.BroadcastRuns
import WalletToolbox.Proofs.ConcurrentRequests

/-! Where all calls have settled, requests and transactions correspond, and a broadcast
that was acknowledged is recorded. A redelivered message may come with another outcome
than the one that was recorded under its key; then nothing is recorded. -/

namespace WalletToolbox
open Async StorageRocksDb List

section
variable {ι : Type} [DecidableEq ι] {hash : ScriptHash} {setup : BroadcastSetup ι} {database : Database} {faults : List Bool}
  {pool after : BroadcastPool ι} {caller : ι}

omit [DecidableEq ι] in
theorem program_guarded (merges : ∀ req, (setup.options.mergeReqToBeef req).Uses QuietCall) (caller : ι) (store) :
    (setup.program caller).Guarded (execInterrupted hash) (broadcastContract hash (setup.call caller)) (CallEnds (setup.call caller)) [] store := by
  unfold BroadcastSetup.program
  cases setup.call caller with
  | deliver delivery =>
    apply Program.Guarded.bind
    refine (consume_guarded merges).mono fun more result after ends => ?_
    cases result with
    | error _ => exact ends
    | ok _ => exact ends
  | publish reqs =>
    apply Program.Guarded.bind
    refine (publish_guarded reqs reqs setup.publisher rfl).mono fun more result after closed => ?_
    cases result with
    | error _ => exact ⟨closed, fun _ _ _ _ is => by cases is⟩
    | ok _ => exact ⟨closed, fun _ _ _ _ is => by cases is⟩
  | prove args =>
    apply Program.Guarded.bind
    refine (prove_guarded args).mono fun more result after closed => ?_
    cases result with
    | error _ => exact ⟨closed, fun _ _ _ _ is => by cases is⟩
    | ok _ => exact ⟨closed, fun _ _ _ _ is => by cases is⟩

theorem callEnds_stable (ends : CallEnds call past result before) (relied : (broadcastContract hash call).rely past before later) :
    CallEnds call past result later := by
  refine ⟨ends.closed, fun delivery message consumed outcome is payload ran acked has succeeded => ?_⟩
  obtain ⟨row, stored, broadcast⟩ := ends.broadcast delivery message consumed outcome is payload ran acked has succeeded
  obtain ⟨next, here, _, stays⟩ := relied.2.1 _ row stored
  refine ⟨next, here, ?_⟩
  simp only [mem_cons, not_mem_nil, or_false] at broadcast ⊢
  rcases broadcast with is | is
  · rw [is] at stays
    exact stays
  · rw [is] at stays
    exact .inr stays

theorem broadcasts_contracted : Pool.Contracted (execInterrupted hash) (Apart hash setup) (fun store => BroadcastStore store.database.records)
    (fun caller => broadcastContract hash (setup.call caller)) fun caller => CallEnds (setup.call caller) :=
  broadcast_contracted hash setup fun _ _ _ _ _ ends relied => callEnds_stable ends relied

def Corresponding (records : Records) : Prop :=
  ∀ id (row : Versioned TableProvenTxReq), records.row .provenTxReqs (.id id) = some row → ∀ txId ∈ row.value.notify,
    ∀ tx : Versioned TableTransaction, records.row .transactions (.id txId) = some tx → corresponds row.value.status tx.value.status

/-- A transaction that does not correspond is yet to be written by a call that has its request open. -/
structure InStep (setup : BroadcastSetup ι) (pool : BroadcastPool ι) : Prop where
  within : ∀ caller opened, openedBy (setup.call caller) (pool.task caller).past = some opened →
    ∃ row : Versioned TableProvenTxReq, pool.store.database.records.row .provenTxReqs (.id opened.provenTxReqId) = some row ∧
      ∀ txId ∈ opened.rest, txId ∈ row.value.notify
  corresponding : ∀ id (row : Versioned TableProvenTxReq), pool.store.database.records.row .provenTxReqs (.id id) = some row →
    ∀ txId ∈ row.value.notify, ∀ tx : Versioned TableTransaction, pool.store.database.records.row .transactions (.id txId) = some tx →
      corresponds row.value.status tx.value.status ∨
        ∃ caller opened, openedBy (setup.call caller) (pool.task caller).past = some opened ∧ opened.provenTxReqId = id ∧ txId ∈ opened.rest

theorem request_reply {store id changes error}
    (failed : (execInterrupted hash (.update .provenTxReqs id changes) store).1 = .error error) :
    (execInterrupted hash (.update .provenTxReqs id changes) store).2.database = store.database := by
  have replies : ∃ count, (callAlone hash (.update .provenTxReqs id changes) store.database).1 = .ok count := by
    show ∃ count, ((updateByKey .provenTxReqs (.id id) changes.spread).run (exec hash) store.database).1 = .ok count
    unfold updateByKey getEntity RocksDbWalletStore.get
    cases found : store.database.records.row .provenTxReqs (.id id) with
    | none => exact ⟨0, by simp [exec, found]⟩
    | some existing =>
      refine ⟨1, ?_⟩
      simp [exec, found]
      rfl
  obtain ⟨count, replies⟩ := replies
  revert failed
  unfold execInterrupted
  split
  · exact fun _ => rfl
  · intro failed
    cases replies.symm.trans failed
  · intro failed
    cases replies.symm.trans failed

theorem transaction_written_ok {store id count changes status tx} (keeps : changes.transactionId = none) (sets : changes.status = some status)
    (owned : RowsOwned store.database.records) (ran : (execInterrupted hash (.update .transactions id changes) store).1 = .ok count)
    (stored : (execInterrupted hash (.update .transactions id changes) store).2.database.records.row .transactions (.id id) = some tx) :
    tx.value.status = status := by
  have after := (execInterrupted_ok ran).2
  rw [after] at stored
  rcases @callAlone_update hash store.database .transactions id changes with ⟨absent, same⟩ | ⟨existing, found, rows⟩
  · rw [same] at stored
    cases absent.symm.trans stored
  · have own : rowKey .transactions (updatedRow hash .transactions changes existing.value) = .id id := by
      have key : rowKey .transactions existing.value = .id id := owned .transactions _ existing found
      simpa [rowKey, updatedRow, TransactionUpdate.spread, keeps] using key
    have now := @withRow_same .transactions (updatedRow hash .transactions changes existing.value) store.database.records
    rw [own] at now
    cases ((rows .transactions (.id id)).trans now).symm.trans stored
    simp [encode, updatedRow, TransactionUpdate.spread, sets]

structure Completed (setup : BroadcastSetup ι) (hash : ScriptHash) (pool after : BroadcastPool ι) (caller : ι) (op : StorageCall) : Prop where
  store : after.store = (execInterrupted hash op pool.store).2
  own : openedBy (setup.call caller) (after.task caller).past =
    Opened.after (setup.call caller) (openedBy (setup.call caller) (pool.task caller).past) ⟨op, (execInterrupted hash op pool.store).1⟩
  others : ∀ other, other ≠ caller → openedBy (setup.call other) (after.task other).past = openedBy (setup.call other) (pool.task other).past

theorem completed_of_advance (moves : pool.advance (execInterrupted hash) caller = some after) :
    ∃ op next, (pool.task caller).program = .await op next ∧ Completed setup hash pool after caller op := by
  obtain ⟨op, next, awaiting, store, tasks⟩ := Pool.advance_cases moves
  refine ⟨op, next, awaiting, store, ?_, fun other different => ?_⟩
  · rw [tasks, Function.update_self, openedBy_append]
  · rw [tasks, Function.update_of_ne different]

variable {op : StorageCall}

theorem InStep.quiet (steps : InStep setup pool) (completed : Completed setup hash pool after caller op) (quiet : QuietCall op)
    (owned : RowsOwned pool.store.database.records) : InStep setup after := by
  obtain ⟨kept, _⟩ := @quiet_keeps hash pool.store op quiet owned
  have opened : ∀ other, openedBy (setup.call other) (after.task other).past = openedBy (setup.call other) (pool.task other).past := by
    intro other
    by_cases same : other = caller
    · subst same
      rw [completed.own, ← openedBy_append]
      exact quiet_opened quiet _
    · exact completed.others other same
  refine ⟨fun other opening is => ?_, fun id row stored txId member tx there => ?_⟩
  · rw [opened] at is
    obtain ⟨row, stored, within⟩ := steps.within other opening is
    refine ⟨row, ?_, within⟩
    rw [completed.store]
    exact (kept.requests _).trans stored
  · rw [completed.store] at stored there
    rcases steps.corresponding id row ((kept.requests _).symm.trans stored) txId member tx ((kept.transactions _).symm.trans there) with
      agrees | ⟨other, opening, is, rest⟩
    · exact .inl agrees
    · exact .inr ⟨other, opening, (opened other).trans is, rest⟩

theorem InStep.transaction {txId changes} (steps : InStep setup pool)
    (completed : Completed setup hash pool after caller (.update .transactions txId changes))
    (promised : Promised (setup.call caller) (pool.task caller).past (.update .transactions txId changes) pool.store)
    (permitted : Permitted hash (setup.call caller) (pool.task caller).past (.update .transactions txId changes) pool.store)
    (holds : BroadcastStore pool.store.database.records) : InStep setup after := by
  obtain ⟨keeps, opened, status, row, is, member, stored, sets, fits⟩ := promised
  obtain ⟨_, requests, others⟩ := @transaction_written hash pool.store txId changes keeps holds.owned
  have succeeds := permitted.1 opened is (ne_nil_of_mem member)
  cases ran : (execInterrupted hash (.update .transactions txId changes) pool.store).1 with
  | error _ =>
    unfold Succeeds at succeeds
    rw [ran] at succeeds
    exact succeeds.elim
  | ok count =>
    have own : openedBy (setup.call caller) (after.task caller).past =
        some { opened with rest := opened.rest.filter (· ≠ txId) } := by
      rw [completed.own, is, ran]
      rfl
    refine ⟨fun other opening now => ?_, fun id another there otherId here tx has => ?_⟩
    · have before : ∃ earlier, openedBy (setup.call other) (pool.task other).past = some earlier ∧
          earlier.provenTxReqId = opening.provenTxReqId ∧ opening.rest ⊆ earlier.rest := by
        by_cases same : other = caller
        · subst same
          cases own.symm.trans now
          exact ⟨opened, is, rfl, fun _ inside => (mem_filter.mp inside).1⟩
        · exact ⟨opening, (completed.others other same).symm.trans now, rfl, List.Subset.refl _⟩
      obtain ⟨earlier, was, sameId, fewer⟩ := before
      obtain ⟨request, found, within⟩ := steps.within other earlier was
      refine ⟨request, ?_, fun id inside => within id (fewer inside)⟩
      rw [completed.store, ← sameId]
      exact (requests _).trans found
    · rw [completed.store] at there has
      have earlier := (requests (.id id)).symm.trans there
      by_cases same : otherId = txId
      · subst same
        obtain ⟨request, found, within⟩ := steps.within caller opened is
        have sameId := holds.apart id opened.provenTxReqId another request earlier found otherId here (within otherId member)
        subst sameId
        cases earlier.symm.trans stored
        refine .inl ?_
        rw [transaction_written_ok keeps sets holds.owned ran has]
        exact fits
      · rcases steps.corresponding id another earlier otherId here tx ((others otherId same).symm.trans has) with agrees | ⟨other, opening, was, sameId, rest⟩
        · exact .inl agrees
        · by_cases moved : other = caller
          · subst moved
            cases was.symm.trans is
            exact .inr ⟨other, _, own, sameId, mem_filter.mpr ⟨rest, decide_eq_true same⟩⟩
          · exact .inr ⟨other, opening, (completed.others other moved).trans was, sameId, rest⟩

theorem InStep.request (steps : InStep setup pool)
    (completed : Completed setup hash pool after caller (.update .provenTxReqs reqId changes))
    (promised : Promised (setup.call caller) (pool.task caller).past (.update .provenTxReqs reqId changes) pool.store)
    (permitted : Permitted hash (setup.call caller) (pool.task caller).past (.update .provenTxReqs reqId changes) pool.store)
    (spares : ∀ other, other ≠ caller → Spares (openedBy (setup.call other) (pool.task other).past) (.update .provenTxReqs reqId changes))
    (holds : BroadcastStore pool.store.database.records) : InStep setup after := by
  have step := @request_step hash pool.store _ _ reqId changes promised permitted.2 holds.owned
  obtain ⟨keeps, closed, ⟨notify, notifies⟩, _, status, sets, moves⟩ := promised
  obtain ⟨written, stored, members, _⟩ := permitted.2
  obtain ⟨_, transactions, others, at_⟩ := @request_written hash pool.store reqId changes keeps holds.owned
  -- what the caller has open now: what it had, or all that the request notifies
  have own : openedBy (setup.call caller) (after.task caller).past = openedBy (setup.call caller) (pool.task caller).past ∧
        ((∃ error, (execInterrupted hash (.update .provenTxReqs reqId changes) pool.store).1 = .error error) ∨
          (openedBy (setup.call caller) (pool.task caller).past).isSome ∨ opensRequest (setup.call caller) changes = false) ∨
      openedBy (setup.call caller) (after.task caller).past = some ⟨reqId, notify⟩ := by
    rw [completed.own]
    cases (execInterrupted hash (.update .provenTxReqs reqId changes) pool.store).1 with
    | error error => exact .inl ⟨rfl, .inl ⟨error, rfl⟩⟩
    | ok count =>
      cases openedBy (setup.call caller) (pool.task caller).past with
      | some _ => exact .inl ⟨rfl, .inr (.inl rfl)⟩
      | none =>
        have opened : Opened.after (setup.call caller) none ⟨.update .provenTxReqs reqId changes, .ok count⟩ =
            if opensRequest (setup.call caller) changes then some ⟨reqId, changes.notify.getD []⟩ else none := rfl
        rw [opened, notifies]
        by_cases opening : opensRequest (setup.call caller) changes = true
        · exact .inr (if_pos opening)
        · exact .inl ⟨if_neg opening, .inr (.inr (Bool.eq_false_of_not_eq_true opening))⟩
  have unopened : ∀ other opened, openedBy (setup.call other) (pool.task other).past = some opened → opened.provenTxReqId = reqId → opened.rest = [] := by
    intro other opened is same
    by_contra remains
    by_cases moved : other = caller
    · subst moved
      exact remains (closed opened is)
    · exact spares other moved opened is remains same
  refine ⟨fun other opening now => ?_, fun id row there txId here tx has => ?_⟩
  · have before : openedBy (setup.call other) (pool.task other).past = some opening ∨ opening = ⟨reqId, notify⟩ := by
      by_cases moved : other = caller
      · subst moved
        rcases own with ⟨same, _⟩ | is
        · exact .inl (same.symm.trans now)
        · cases is.symm.trans now
          exact .inr rfl
      · exact .inl ((completed.others other moved).symm.trans now)
    rcases before with was | rfl
    · obtain ⟨request, found, within⟩ := steps.within other opening was
      obtain ⟨next, now, same, _⟩ := step.stay _ request found
      rw [completed.store]
      exact ⟨next, now, fun id inside => (same id).mpr (within id inside)⟩
    · obtain ⟨next, now, same, _⟩ := step.stay _ written stored
      rw [completed.store]
      refine ⟨next, now, fun id inside => (same id).mpr ((members id).mp ?_)⟩
      rw [notifies]
      exact inside
  · rw [completed.store] at there has
    have sameTx := (transactions (.id txId)).symm.trans has
    have opensStill : ∀ other opened, openedBy (setup.call other) (pool.task other).past = some opened → txId ∈ opened.rest →
        openedBy (setup.call other) (after.task other).past = some opened := by
      intro other opened was rest
      by_cases moved : other = caller
      · subst moved
        cases closed opened was ▸ rest
      · exact (completed.others other moved).trans was
    by_cases same : id = reqId
    · subst same
      rcases at_ with kept | ⟨existing, next, found, now, is⟩
      · rcases steps.corresponding id row (kept.symm.trans there) txId here tx sameTx with agrees | ⟨other, opened, was, sameId, rest⟩
        · exact .inl agrees
        · exact .inr ⟨other, opened, opensStill other opened was rest, sameId, rest⟩
      · cases now.symm.trans there
        cases found.symm.trans stored
        have nextStatus : row.value.status = status := by
          rw [is]
          simp [ProvenTxReqUpdate.spread, sets]
        have nextNotify : row.value.notify = notify := by
          rw [is]
          simp [ProvenTxReqUpdate.spread, notifies]
        rw [nextNotify] at here
        have before := steps.corresponding id written stored txId ((members txId).mp (by rw [notifies]; exact here)) tx sameTx
        have agreed : corresponds written.value.status tx.value.status := by
          rcases before with agrees | ⟨other, opened, was, sameId, rest⟩
          · exact agrees
          · cases unopened other opened was sameId ▸ rest
        rcases own with ⟨_, ⟨error, failed⟩ | silent⟩ | opened
        · have kept := request_reply failed
          rw [kept] at there
          cases stored.symm.trans there
          exact .inl agreed
        · refine .inl ?_
          rw [nextStatus]
          exact (moves written stored).2 silent _ agreed
        · exact .inr ⟨caller, _, opened, rfl, here⟩
    · rcases steps.corresponding id row ((others id same).symm.trans there) txId here tx sameTx with agrees | ⟨other, opened, was, sameId, rest⟩
      · exact .inl agrees
      · exact .inr ⟨other, opened, opensStill other opened was rest, sameId, rest⟩

theorem inStep_advance (steps : InStep setup pool) (moves : pool.advance (execInterrupted hash) caller = some after)
    (apart : Apart hash setup pool caller) (holds : BroadcastStore pool.store.database.records)
    (promises : ∀ op next, (pool.task caller).program = .await op next → Promised (setup.call caller) (pool.task caller).past op pool.store) :
    InStep setup after := by
  obtain ⟨op, next, awaiting, completed⟩ := @completed_of_advance _ _ hash setup _ _ _ moves
  have promised := promises op next awaiting
  obtain ⟨permitted, spares⟩ := apart op next awaiting
  rcases promised_cases promised with quiet | ⟨id, changes, rfl⟩ | ⟨id, changes, rfl⟩
  · exact steps.quiet completed quiet holds.owned
  · exact steps.transaction completed promised permitted holds
  · exact steps.request completed promised permitted spares holds

theorem inStep_reached (merges : ∀ req, (setup.options.mergeReqToBeef req).Uses QuietCall) (holds : BroadcastStore database.records)
    (corresponding : Corresponding database.records)
    (reached : Pool.Reaches (execInterrupted hash) (Apart hash setup) (setup.start database faults) pool) : InStep setup pool := by
  have guarded : ∀ caller, ((setup.start database faults).task caller).program.Guarded (execInterrupted hash)
      (broadcastContract hash (setup.call caller)) (CallEnds (setup.call caller)) ((setup.start database faults).task caller).past
      (setup.start database faults).store := fun caller => program_guarded merges caller _
  have first : InStep setup (setup.start database faults) := by
    refine ⟨fun _ _ is => (by cases is), ?_⟩
    exact fun id row stored txId member tx there => .inl (corresponding id row stored txId member tx there)
  refine reached.invariant first fun pool caller after earlier steps apart moves => ?_
  refine inStep_advance steps moves apart (earlier.guarded broadcasts_contracted holds guarded).1 fun op next awaiting => ?_
  exact earlier.promised broadcasts_contracted holds guarded apart awaiting

def Delivered (setup : BroadcastSetup ι) (pool : BroadcastPool ι) (caller : ι) (message : TxBroadcastMessage) (consumed : Consumed) : Prop :=
  ∃ delivery, setup.call caller = .deliver delivery ∧ delivery.payload = .ok message ∧ (pool.task caller).program = .done (some consumed)

def AllSettled (pool : BroadcastPool ι) : Prop := ∀ caller op next, (pool.task caller).program ≠ .await op next

def NonePending (setup : BroadcastSetup ι) (pool : BroadcastPool ι) : Prop :=
  ∀ caller delivery message, setup.call caller = .deliver delivery → delivery.payload = .ok message →
    ∃ other consumed, Delivered setup pool other message consumed ∧ consumed.disposition ≠ .nak

def BroadcastKnown (provenTxReqId : Nat) (records : Records) : Prop :=
  ∃ row : Versioned TableProvenTxReq, records.row .provenTxReqs (.id provenTxReqId) = some row ∧ row.value.status ∈ [.unmined, .completed] ∧
    ∀ txId ∈ row.value.notify, ∀ tx : Versioned TableTransaction, records.row .transactions (.id txId) = some tx →
      tx.value.status ∈ [.failed, .unproven, .completed]

def StatusesSettle (setup : BroadcastSetup ι) (pool : BroadcastPool ι) : Prop :=
  AllSettled pool → NonePending setup pool →
    (∀ caller message consumed outcome, Delivered setup pool caller message consumed → consumed.outcome = some outcome → outcome.succeeded →
      BroadcastKnown message.provenTxReqId pool.store.database.records) ∧
    Corresponding pool.store.database.records

def TakesNothingBack (hash : ScriptHash) (setup : BroadcastSetup ι) (pool : BroadcastPool ι) (caller : ι) : Prop :=
  ∀ delivery after, setup.call caller = .deliver delivery → delivery.succeeded = false → pool.advance (execInterrupted hash) caller = some after →
    ∀ id (row : Versioned TableProvenTxReq), pool.store.database.records.row .provenTxReqs (.id id) = some row →
      row.value.status ∈ [.unmined, .completed, .invalid, .doubleSpend] →
      ∃ next : Versioned TableProvenTxReq, after.store.database.records.row .provenTxReqs (.id id) = some next ∧ next.value.status = row.value.status

def SuccessAcknowledged (setup : BroadcastSetup ι) (pool : BroadcastPool ι) : Prop :=
  ∀ caller message consumed outcome, Delivered setup pool caller message consumed → consumed.outcome = some outcome → outcome.succeeded →
    ∃ other again, Delivered setup pool other message ⟨some again, .ack⟩ ∧ again.succeeded

theorem takesNothingBack (promises : ∀ op next, (pool.task caller).program = .await op next →
      Promised (setup.call caller) (pool.task caller).past op pool.store)
    (apart : Apart hash setup pool caller) (holds : BroadcastStore pool.store.database.records) : TakesNothingBack hash setup pool caller := by
  intro delivery after is unsuccessful moves id row stored finished
  obtain ⟨op, next, awaiting, completed⟩ := @completed_of_advance _ _ hash setup _ _ _ moves
  have promised := promises op next awaiting
  obtain ⟨permitted, _⟩ := apart op next awaiting
  rw [completed.store]
  rcases promised_cases promised with quiet | ⟨txId, changes, rfl⟩ | ⟨reqId, changes, rfl⟩
  · exact ⟨row, ((@quiet_keeps hash pool.store op quiet holds.owned).1.requests _).trans stored, rfl⟩
  · exact ⟨row, ((@transaction_written hash pool.store txId changes promised.1 holds.owned).2.1 _).trans stored, rfl⟩
  · obtain ⟨_, _, others, _⟩ := @request_written hash pool.store reqId changes promised.1 holds.owned
    by_cases same : id = reqId
    · subst same
      obtain ⟨written, there, _, may⟩ := permitted.2
      rw [is] at may
      cases stored.symm.trans there
      have unmined : changes.status ≠ some .unmined := by
        intro unmined
        have succeeds := promised.2.2.2.1 delivery is unmined
        rw [unsuccessful] at succeeds
        cases succeeds
      have unsettled := may.1
      have notFailed := may.2.1 unmined
      simp only [mem_cons, not_mem_nil, or_false, not_or] at finished unsettled notFailed
      rcases finished with is | is | is | is
      · exact absurd is unsettled.1
      · exact absurd is unsettled.2
      · exact absurd is notFailed.1
      · exact absurd is notFailed.2
    · exact ⟨row, (others id same).trans stored, rfl⟩

/-- In a run whose calls write only what is up to date, with no other call's open request
among it, and are not interrupted while they have one open, deliveries take nothing back;
and once no message is pending, requests and transactions correspond and what was
broadcast is known. -/
theorem broadcasts_settle (merges : ∀ req, (setup.options.mergeReqToBeef req).Uses QuietCall) (holds : BroadcastStore database.records)
    (corresponding : Corresponding database.records)
    (reached : Pool.Reaches (execInterrupted hash) (Apart hash setup) (setup.start database faults) pool)
    (acknowledged : SuccessAcknowledged setup pool) :
    StatusesSettle setup pool ∧ ∀ caller, Apart hash setup pool caller → TakesNothingBack hash setup pool caller := by
  have guarded : ∀ caller, ((setup.start database faults).task caller).program.Guarded (execInterrupted hash)
      (broadcastContract hash (setup.call caller)) (CallEnds (setup.call caller)) ((setup.start database faults).task caller).past
      (setup.start database faults).store := fun caller => program_guarded merges caller _
  obtain ⟨held, kept⟩ := reached.guarded broadcasts_contracted holds guarded
  have steps := inStep_reached merges holds corresponding reached
  refine ⟨fun settled _ => ?_, fun caller apart => ?_⟩
  · have ends : ∀ caller, ∃ result, CallEnds (setup.call caller) (pool.task caller).past result pool.store ∧
        ∀ consumed, (pool.task caller).program = .done consumed → result = .ok consumed := by
      intro caller
      have here := kept caller
      cases program : (pool.task caller).program with
      | await op next => exact absurd program (settled caller op next)
      | done consumed =>
        rw [program] at here
        refine ⟨_, here, fun other is => ?_⟩
        cases is
        rfl
      | fail error =>
        rw [program] at here
        exact ⟨_, here, fun other is => by cases is⟩
    have agree : Corresponding pool.store.database.records := by
      intro id row stored txId member tx there
      rcases steps.corresponding id row stored txId member tx there with agrees | ⟨caller, opened, is, _, rest⟩
      · exact agrees
      · obtain ⟨_, ended, _⟩ := ends caller
        cases ended.closed opened is ▸ rest
    refine ⟨fun caller message consumed outcome delivered has succeeded => ?_, agree⟩
    obtain ⟨other, again, ⟨delivery, is, payload, done⟩, success⟩ := acknowledged caller message consumed outcome delivered has succeeded
    obtain ⟨result, ended, returns⟩ := ends other
    obtain ⟨row, stored, broadcast⟩ := ended.broadcast delivery message _ again is payload (returns _ done) rfl rfl success
    refine ⟨row, stored, broadcast, fun txId member tx there => ?_⟩
    have agrees := agree _ row stored txId member tx there
    simp only [mem_cons, not_mem_nil, or_false] at broadcast ⊢
    rcases broadcast with is | is
    · rw [is] at agrees
      exact .inr (.inl (of_decide_eq_true agrees))
    · rw [is] at agrees
      exact .inr (.inr (of_decide_eq_true agrees))
  · exact takesNothingBack (fun op next awaiting => reached.promised broadcasts_contracted holds guarded apart awaiting) apart held

end

def sampleMessage : TxBroadcastMessage where
  messageId := "m"
  idempotencyKey := "k"
  source := "s"
  chain := "test"
  txid := "t"
  rawTxHash := "h"
  attempt := 1
  walletStorageIdentityKey := "w"
  provenTxReqId := 1

def sampleSending : TableTransaction where
  transactionId := 1
  userId := 1
  provenTxId := none
  status := .sending
  reference := "r"
  isOutgoing := true
  satoshis := 1
  description := "sample"
  version := none
  lockTime := none
  txid := some "t"
  inputBEEF := none
  rawTx := none

def sendingDatabase : Database where
  records := withRow .provenTxReqs { sampleReq 1 [1] with status := .sending } (withRow .transactions sampleSending ∅)
  idBlocks _ := none

/-- A provider that has accepted the transaction, or asks to try again. -/
def answers (accepted : Bool) : List PostBeefResult :=
  [{ name := "p", success := accepted, txidResults := [{ txid := "t", success := accepted, serviceError := !accepted }] }]

def sampleDelivery (accepted : Bool) : BroadcastDelivery := { payload := .ok sampleMessage, deliveryCount := some 1, results := .ok (answers accepted) }

def deliveries {ι : Type} (accepted : ι → Bool) : BroadcastSetup ι where
  clock _ _ := "2024-01-01T12:00:00.000Z"
  options := { mergeReqToBeef := fun _ => return, rawTxHash := fun _ => "h" }
  publisher := { chain := "test", walletStorageIdentityKey := "w", messageId := fun _ _ => "m", rawTxHash := fun _ => "h", publishTxBroadcast := fun _ => .ok () }
  call caller := .deliver (sampleDelivery (accepted caller))

theorem sendingDatabase_store : BroadcastStore sendingDatabase.records := by
  have empty : RowsOwned ∅ := fun _ _ _ stored => by cases stored
  have only : ∀ id (row : Versioned TableProvenTxReq), sendingDatabase.records.row .provenTxReqs (.id id) = some row → id = 1 := by
    intro id row stored
    by_contra other
    have none : sendingDatabase.records.row .provenTxReqs (.id id) = none := by
      refine (withRow_other _ _ fun both => other ?_).trans ((withRow_other _ _ (by simp)).trans rfl)
      cases both.2
      rfl
    cases none.symm.trans stored
  exact ⟨withRow_owned _ _ (withRow_owned _ _ empty), fun id other row another stored there _ _ _ => (only id row stored).trans (only other another there).symm⟩

theorem sendingDatabase_corresponding : Corresponding sendingDatabase.records := by
  intro id row stored txId member tx there
  have one : id = 1 := by
    by_contra other
    have none : sendingDatabase.records.row .provenTxReqs (.id id) = none := by
      refine (withRow_other _ _ fun both => other ?_).trans ((withRow_other _ _ (by simp)).trans rfl)
      cases both.2
      rfl
    cases none.symm.trans stored
  subst one
  have request : sendingDatabase.records.row .provenTxReqs (.id 1) = some ⟨{ sampleReq 1 [1] with status := .sending }, 1⟩ := by decide +kernel
  cases request.symm.trans stored
  cases mem_singleton.mp member
  have transaction : sendingDatabase.records.row .transactions (.id 1) = some ⟨sampleSending, 1⟩ := by decide +kernel
  cases transaction.symm.trans there
  decide

/-- A storage call of the sample delivery that may be made, as it is checked while a run is followed. -/
def mayCall (op : StorageCall) (store : Interrupted) : Bool :=
  match op with
  | .find .outputs _ => false
  | .find .provenTxReqs _ =>
    (store.database.records.row .provenTxReqs (.id 1)).all fun row => !BroadcastStorageAdapter.hasRecordedAttempt row.value "k"
  | .update .provenTxReqs id changes =>
    match store.database.records.row .provenTxReqs (.id id), store.database.records.row .transactions (.id 1) with
    | some row, some tx => changes.notify = some [1] && row.value.notify = [1] && row.value.status = .sending && tx.value.status = .sending &&
        truthyId tx.value.provenTxId = none
    | _, _ => false
  | _ => true

def deliveryStep (pool : BroadcastPool Unit) (caller : Unit) : Bool :=
  match (pool.task caller).program with
  | .await op _ => mayCall op pool.store && (execInterrupted noHash op pool.store).1.isOk
  | _ => false

theorem mayCall_succeeds (may : mayCall op store = true)
    (ran : (execInterrupted noHash op store).1.isOk = true) : Succeeds noHash op store := by
  unfold Succeeds
  split
  · next failed =>
    rw [failed] at ran
    cases ran
  · cases may
  · trivial

theorem mayCall_permitted (may : mayCall op store = true)
    (ran : (execInterrupted noHash op store).1.isOk = true) : Permitted noHash (.deliver (sampleDelivery true)) past op store := by
  refine ⟨fun _ _ _ => mayCall_succeeds may ran, ?_⟩
  split
  · simp only [mayCall] at may
    split at may
    · next row tx found there =>
      simp only [Bool.and_eq_true, decide_eq_true_eq] at may
      obtain ⟨⟨⟨⟨writes, notifies⟩, sending⟩, sendingTx⟩, unproven⟩ := may
      refine ⟨row, found, fun txId => ?_, ?_⟩
      · rw [writes, notifies]
        rfl
      · show _ ∧ _ ∧ _
        rw [sending, notifies]
        refine ⟨by decide, fun _ => by decide, fun _ txId member => ?_⟩
        cases mem_singleton.mp member
        exact ⟨by decide, tx, there, by rw [sendingTx]; decide, unproven⟩
    · cases may
  · intro message row payload _ stored recorded
    cases payload
    have stored : store.database.records.row .provenTxReqs (.id 1) = some row := stored
    simp only [mayCall, stored] at may
    have unrecorded := (Bool.not_eq_true' _).mp may
    cases unrecorded.symm.trans recorded
  · trivial

theorem deliveryStep_apart (pool) (caller) (checked : deliveryStep pool caller = true) :
    Apart noHash (deliveries fun _ => true) pool caller := by
  intro op next awaiting
  unfold deliveryStep at checked
  rw [awaiting] at checked
  obtain ⟨may, ran⟩ := (Bool.and_eq_true _ _).mp checked
  exact ⟨mayCall_permitted may ran, fun other different => absurd rfl different⟩

/-- The message is accepted where it is first delivered. -/
theorem broadcasts_settle_sample : ∃ pool : BroadcastPool Unit,
    (pool.task ()).program = .done (some ⟨some .accepted, .ack⟩) ∧ StatusesSettle (deliveries fun _ => true) pool ∧
      (pool.store.database.records.row .provenTxReqs (.id 1)).map (fun row => row.value.status) = some .unmined := by
  have runs : (((deliveries fun _ : Unit => true).start sendingDatabase []).followWhile (execInterrupted noHash) deliveryStep (replicate 5 ())).map
      (fun pool => ((pool.task ()).program.outcome, (pool.store.database.records.row .provenTxReqs (.id 1)).map fun row => row.value.status)) =
      some (some (.ok (some ⟨some .accepted, .ack⟩)), some .unmined) := by decide +kernel
  obtain ⟨pool, followed, settled⟩ := Option.map_eq_some_iff.mp runs
  obtain ⟨ended, status⟩ := Prod.mk.inj settled
  have done := Program.outcome_ok.mp ended
  have acked : Delivered (deliveries fun _ => true) pool () sampleMessage ⟨some .accepted, .ack⟩ := ⟨sampleDelivery true, rfl, rfl, done⟩
  have merges : ∀ req, ((deliveries fun _ : Unit => true).options.mergeReqToBeef req).Uses QuietCall := fun _ => trivial
  refine ⟨pool, done, (broadcasts_settle merges sendingDatabase_store sendingDatabase_corresponding
    (Pool.reaches_followWhile deliveryStep_apart followed) ?_).1, status⟩
  intro caller message consumed outcome delivered has succeeds
  obtain ⟨delivery, is, payload, _⟩ := delivered
  cases is
  cases payload
  exact ⟨(), .accepted, acked, by decide⟩

/-- The message is delivered again after a retry was recorded: that it was accepted is not. -/
theorem accepted_not_recorded : ¬ ∀ (setup : BroadcastSetup Bool) (database : Database) (faults : List Bool) (pool : BroadcastPool Bool),
    (∀ req, (setup.options.mergeReqToBeef req).Uses QuietCall) → BroadcastStore database.records → Corresponding database.records →
    Pool.Reaches (execInterrupted noHash) Pool.anyStep (setup.start database faults) pool → StatusesSettle setup pool := by
  intro settles
  have runs : (((deliveries id).start sendingDatabase []).follow (execInterrupted noHash) (replicate 5 false ++ replicate 2 true)).map
      (fun pool => ((pool.task false).program.outcome, (pool.task true).program.outcome,
        (pool.store.database.records.row .provenTxReqs (.id 1)).map fun row => row.value.status)) =
      some (some (.ok (some ⟨some .rejectedRetryable, .nak⟩)), some (.ok (some ⟨some .accepted, .ack⟩)), some .sending) := by decide +kernel
  obtain ⟨pool, followed, settled⟩ := Option.map_eq_some_iff.mp runs
  simp only [Prod.mk.injEq] at settled
  obtain ⟨first, second, status⟩ := settled
  have ended : ∀ caller, ∃ consumed, (pool.task caller).program = .done consumed := by
    intro caller
    cases caller with
    | false => exact ⟨_, Program.outcome_ok.mp first⟩
    | true => exact ⟨_, Program.outcome_ok.mp second⟩
  have acked : Delivered (deliveries id) pool true sampleMessage ⟨some .accepted, .ack⟩ :=
    ⟨sampleDelivery true, rfl, rfl, Program.outcome_ok.mp second⟩
  have known := settles (deliveries id) sendingDatabase [] pool (fun _ => trivial) sendingDatabase_store sendingDatabase_corresponding
    (Pool.reaches_follow followed) ?_ ?_
  · obtain ⟨row, stored, broadcast, _⟩ := known.1 true sampleMessage _ .accepted acked rfl (by decide)
    have stored : pool.store.database.records.row .provenTxReqs (.id 1) = some row := stored
    rw [stored] at status
    have status : row.value.status = .sending := Option.some.inj status
    rw [status] at broadcast
    simp at broadcast
  · intro caller op next awaiting
    obtain ⟨consumed, done⟩ := ended caller
    cases awaiting.symm.trans done
  · intro caller delivery message is payload
    cases is
    cases payload
    exact ⟨true, _, acked, by decide⟩

end WalletToolbox

import WalletToolbox.Messaging.BroadcastConsumer
import WalletToolbox.Proofs.RowWrites

/-! Deliveries, publications and proofs at once, over storage whose calls may fail. A
request is written before its transactions are: in between the request is open, and
its status says what the transactions are still to become. -/

namespace WalletToolbox
open Async StorageRocksDb

structure Interrupted where
  database : Database
  faults : List Bool

def interruption : WalletError := .error "The storage call was interrupted."

def execInterrupted (hash : ScriptHash) : Machine storage Interrupted := fun call store =>
  match store.faults with
  | true :: rest => (.error interruption, ⟨store.database, rest⟩)
  | false :: rest => ((callAlone hash call store.database).1, ⟨(callAlone hash call store.database).2, rest⟩)
  | [] => ((callAlone hash call store.database).1, ⟨(callAlone hash call store.database).2, []⟩)

inductive BroadcastCall where
  | deliver (delivery : BroadcastDelivery)
  | publish (reqs : List TableProvenTxReq)
  | prove (args : StorageProvider.UpdateProvenTxReqWithNewProvenTxArgs)

structure BroadcastSetup (ι : Type) where
  clock : ι → Clock
  options : BroadcastConsumer.Options
  publisher : BroadcastPublisher
  call : ι → BroadcastCall

abbrev BroadcastPool (ι : Type) := Pool storage WalletError (Option Consumed) Interrupted ι

section
variable {ι : Type}

namespace BroadcastSetup

def program (setup : BroadcastSetup ι) (caller : ι) : StorageM (Option Consumed) :=
  match setup.call caller with
  | .deliver delivery => do return some (← BroadcastConsumer.consumeJetStreamMessage (setup.clock caller) setup.options delivery)
  | .publish reqs => do
    TaskSendWaiting.publishWorkItemToBroadcastStream (setup.clock caller) setup.publisher reqs
    return none
  | .prove args => do
    let _ ← StorageProvider.updateProvenTxReqWithNewProvenTx (setup.clock caller) args
    return none

def start (setup : BroadcastSetup ι) (database : Database) (faults : List Bool) : BroadcastPool ι :=
  .start ⟨database, faults⟩ setup.program

end BroadcastSetup

/-- A request a call has written, and its transactions that are not written yet. -/
structure Opened where
  provenTxReqId : Nat
  rest : List Nat
deriving DecidableEq

/-- Whether a call goes on to the transactions of the request it writes. -/
def opensRequest (call : BroadcastCall) (changes : ProvenTxReqUpdate) : Bool :=
  match call with
  | .deliver _ => changes.status ≠ some .unknown
  | .publish _ => false
  | .prove _ => true

def Opened.after (call : BroadcastCall) (opened : Option Opened) (event : Event storage) : Option Opened :=
  match event with
  | ⟨.update .provenTxReqs id changes, .ok _⟩ =>
    match opened with
    | some opened => some opened
    | none => if opensRequest call changes then some ⟨id, changes.notify.getD []⟩ else none
  | ⟨.update .transactions id _, .ok _⟩ => opened.map fun opened => { opened with rest := opened.rest.filter (· ≠ id) }
  | _ => opened

def openedBy (call : BroadcastCall) (past : List (Event storage)) : Option Opened := past.foldl (Opened.after call) none

theorem openedBy_append (call) (past) (event) :
    openedBy call (past ++ [event]) = Opened.after call (openedBy call past) event := by
  rw [openedBy, List.foldl_append]
  rfl

/-- The statuses of the transactions of a request. Of a request that is yet to be
broadcast, none is past its broadcast. -/
def corresponds : ProvenTxReqStatus → TransactionStatus → Bool
  | .completed, status => status = .completed
  | .unmined, status | .callback, status | .unconfirmed, status => status = .unproven
  | .invalid, status | .doubleSpend, status => status = .failed
  | .unknown, status => status ∉ [.completed, .failed]
  | .sending, status | .unsent, status | .nosend, status | .nonfinal, status | .unprocessed, status | .unfail, status =>
    status ∉ [.completed, .failed, .unproven]

def Stays : ProvenTxReqStatus → ProvenTxReqStatus → Prop
  | .completed, after => after = .completed
  | .unmined, after => after = .unmined ∨ after = .completed
  | _, _ => True

theorem Stays.refl (status) : Stays status status := by
  cases status <;> simp [Stays]

theorem Stays.trans (earlier : Stays first second) (later : Stays second third) : Stays first third := by
  cases first with
  | completed =>
    cases earlier
    exact later
  | unmined =>
    rcases earlier with rfl | rfl
    · exact later
    · exact .inr later
  | _ => trivial

theorem stays_of_not (open_ : before ∉ [.unmined, .completed]) : Stays before after := by
  cases before <;> simp_all [Stays]

def RequestsStay (before after : Records) : Prop :=
  ∀ id (row : Versioned TableProvenTxReq), before.row .provenTxReqs (.id id) = some row →
    ∃ next : Versioned TableProvenTxReq, after.row .provenTxReqs (.id id) = some next ∧
      (∀ tx, tx ∈ next.value.notify ↔ tx ∈ row.value.notify) ∧ Stays row.value.status next.value.status

def NotifyApart (records : Records) : Prop :=
  ∀ id other (row another : Versioned TableProvenTxReq), records.row .provenTxReqs (.id id) = some row →
    records.row .provenTxReqs (.id other) = some another → ∀ tx, tx ∈ row.value.notify → tx ∈ another.value.notify → id = other

theorem RequestsStay.refl (records) : RequestsStay records records :=
  fun _ row stored => ⟨row, stored, fun _ => .rfl, .refl _⟩

theorem RequestsStay.trans (earlier : RequestsStay first second) (later : RequestsStay second third) :
    RequestsStay first third := by
  intro id row stored
  obtain ⟨middle, there, members, stays⟩ := earlier id row stored
  obtain ⟨last, here, also, further⟩ := later id middle there
  exact ⟨last, here, fun tx => (also tx).trans (members tx), stays.trans further⟩

def TransactionsOpen (records : Records) (ids : List Nat) : Prop :=
  ∀ id ∈ ids, id ≠ 0 ∧ ∃ tx : Versioned TableTransaction, records.row .transactions (.id id) = some tx ∧
    tx.value.status ∉ [.completed, .failed] ∧ truthyId tx.value.provenTxId = none

/-- A write of a request is up to date: the request has the transactions that are written,
and what it was has not been settled meanwhile. -/
def MayWrite (call : BroadcastCall) (id : Nat) (changes : ProvenTxReqUpdate) (records : Records) : Prop :=
  ∃ row : Versioned TableProvenTxReq, records.row .provenTxReqs (.id id) = some row ∧
    (∀ tx, tx ∈ changes.notify.getD [] ↔ tx ∈ row.value.notify) ∧
    match call with
    | .deliver _ => row.value.status ∉ [.unmined, .completed] ∧ (changes.status ≠ some .unmined → row.value.status ∉ [.invalid, .doubleSpend]) ∧
        (changes.status ≠ some .unknown → TransactionsOpen records row.value.notify)
    | .publish _ => row.value.status ∈ [.unsent, .sending]
    | .prove _ => True

def Succeeds (hash : ScriptHash) (call : StorageCall) (store : Interrupted) : Prop :=
  match call, (execInterrupted hash call store).1 with
  | _, .error _ => False
  | .find .outputs _, .ok outputs => ∀ output ∈ outputs, output.outputId ≠ 0
  | _, .ok _ => True

def BroadcastProviderOutcome.succeeded (outcome : BroadcastProviderOutcome) : Bool := outcome ∈ [.accepted, .seen, .alreadySeen]

def BroadcastDelivery.outcome (delivery : BroadcastDelivery) : Option BroadcastProviderOutcome :=
  match delivery.payload, delivery.results with
  | .ok message, .ok results => some (classifyBroadcastResults results message.txid)
  | _, _ => none

def BroadcastDelivery.succeeded (delivery : BroadcastDelivery) : Bool := delivery.outcome.any BroadcastProviderOutcome.succeeded

def NotLost (call : BroadcastCall) (records : Records) : Prop :=
  match call with
  | .deliver delivery => ∀ message (row : Versioned TableProvenTxReq), delivery.payload = .ok message → delivery.succeeded →
      records.row .provenTxReqs (.id message.provenTxReqId) = some row →
      BroadcastStorageAdapter.hasRecordedAttempt row.value message.idempotencyKey → row.value.status ∈ [.unmined, .completed]
  | _ => True

/-- When a call may go on: its writes are up to date, its record of a success is not
skipped, and it is not interrupted while it has a request open. -/
def Permitted (hash : ScriptHash) (call : BroadcastCall) (past : List (Event storage)) (op : StorageCall) (store : Interrupted) : Prop :=
  (∀ opened, openedBy call past = some opened → opened.rest ≠ [] → Succeeds hash op store) ∧
    match op with
    | .update .provenTxReqs id changes => MayWrite call id changes store.database.records
    | .find .provenTxReqs _ => NotLost call store.database.records
    | _ => True

/-- The writes a call makes. -/
def Promised (call : BroadcastCall) (past : List (Event storage)) (op : StorageCall) (store : Interrupted) : Prop :=
  match op with
  | .find _ _ | .insert .provenTxs _ | .update .outputs _ _ => True
  | .update .transactions id changes => changes.transactionId = none ∧ ∃ opened status, ∃ row : Versioned TableProvenTxReq,
      openedBy call past = some opened ∧ id ∈ opened.rest ∧ store.database.records.row .provenTxReqs (.id opened.provenTxReqId) = some row ∧
      changes.status = some status ∧ corresponds row.value.status status
  | .update .provenTxReqs id changes => changes.provenTxReqId = none ∧ (∀ opened, openedBy call past = some opened → opened.rest = []) ∧
      (∃ notify, changes.notify = some notify) ∧
      (∀ delivery, call = .deliver delivery → changes.status = some .unmined → delivery.succeeded) ∧
      ∃ status, changes.status = some status ∧ ∀ row : Versioned TableProvenTxReq, store.database.records.row .provenTxReqs (.id id) = some row →
        Stays row.value.status status ∧
        ((openedBy call past).isSome ∨ opensRequest call changes = false → ∀ tx, corresponds row.value.status tx → corresponds status tx)
  | _ => False

def broadcastContract (hash : ScriptHash) (call : BroadcastCall) : Contract storage Interrupted where
  rely past before after := RowsOwned after.database.records ∧ RequestsStay before.database.records after.database.records ∧
    ∀ opened, openedBy call past = some opened → opened.rest ≠ [] →
      after.database.records.row .provenTxReqs (.id opened.provenTxReqId) = before.database.records.row .provenTxReqs (.id opened.provenTxReqId) ∧
      ∀ id ∈ opened.rest, after.database.records.row .transactions (.id id) = before.database.records.row .transactions (.id id)
  permitted := Permitted hash call
  promises := Promised call

/-- A write that leaves an open request and its transactions alone. -/
def Spares (opened : Option Opened) : StorageCall → Prop
  | .update .provenTxReqs id _ => ∀ other, opened = some other → other.rest ≠ [] → other.provenTxReqId ≠ id
  | .update .transactions id _ => ∀ other, opened = some other → id ∉ other.rest
  | _ => True

/-- No call writes what another has open. -/
def Apart (hash : ScriptHash) (setup : BroadcastSetup ι) (pool : BroadcastPool ι) (caller : ι) : Prop :=
  ∀ op next, (pool.task caller).program = .await op next →
    Permitted hash (setup.call caller) (pool.task caller).past op pool.store ∧
      ∀ other, other ≠ caller → Spares (openedBy (setup.call other) (pool.task other).past) op

section
variable {hash : ScriptHash} {store : Interrupted} {call : BroadcastCall} {past : List (Event storage)} {op : StorageCall}

theorem execInterrupted_database (op) (store) :
    (execInterrupted hash op store).2.database = store.database ∨
      (execInterrupted hash op store).2.database = (callAlone hash op store.database).2 := by
  unfold execInterrupted
  split
  · exact .inl rfl
  · exact .inr rfl
  · exact .inr rfl

theorem execInterrupted_ok (ran : (execInterrupted hash op store).1 = .ok reply) :
    (callAlone hash op store.database).1 = .ok reply ∧ (execInterrupted hash op store).2.database = (callAlone hash op store.database).2 := by
  revert ran
  unfold execInterrupted
  split
  · intro ran
    cases ran
  · exact fun ran => ⟨ran, rfl⟩
  · exact fun ran => ⟨ran, rfl⟩

structure StatusesKept (before after : Records) : Prop where
  requests : ∀ key, after.row .provenTxReqs key = before.row .provenTxReqs key
  transactions : ∀ key, after.row .transactions key = before.row .transactions key

theorem SameRows.statusesKept (same : SameRows before after) : StatusesKept before after :=
  ⟨same .provenTxReqs, same .transactions⟩

theorem execInterrupted_update (table) (key) (changes) (store) :
    SameRows store.database.records (execInterrupted hash (.update table key changes) store).2.database.records ∨
      ∃ existing, store.database.records.row table (key.row table) = some existing ∧
        SameRows (withRow table (updatedRow hash table changes existing.value) store.database.records)
          (execInterrupted hash (.update table key changes) store).2.database.records := by
  rcases @execInterrupted_database hash (.update table key changes) store with same | same
  · exact .inl fun table key => congrArg (fun database : Database => database.records.row table key) same
  · rcases @callAlone_update hash store.database table key changes with ⟨_, kept⟩ | ⟨existing, found, rows⟩
    · exact .inl fun table key => congrArg (fun database : Database => database.records.row table key) (same.trans kept)
    · exact .inr ⟨existing, found, same ▸ rows⟩

/-- Reads, new proofs and writes of outputs. -/
def QuietCall : StorageCall → Prop
  | .find _ _ | .insert .provenTxs _ | .update .outputs _ _ => True
  | _ => False

theorem quiet_promised (quiet : QuietCall op) : Promised call past op store := by
  cases op with
  | find => trivial
  | allocateChangeInput => exact quiet.elim
  | insert table => cases table <;> trivial
  | update table => cases table <;> trivial

/-- They change no request and no transaction. -/
theorem quiet_keeps (quiet : QuietCall op)
    (owned : RowsOwned store.database.records) :
    StatusesKept store.database.records (execInterrupted hash op store).2.database.records ∧
      RowsOwned (execInterrupted hash op store).2.database.records := by
  cases op with
  | allocateChangeInput => exact quiet.elim
  | find table args =>
    have same : (execInterrupted hash (.find table args) store).2.database = store.database := by
      rcases @execInterrupted_database hash (.find table args) store with same | same
      · exact same
      · exact same.trans (callAlone_find args)
    rw [same]
    exact ⟨⟨fun _ => rfl, fun _ => rfl⟩, owned⟩
  | insert table row =>
    cases table with
    | provenTxs =>
      rcases @execInterrupted_database hash (.insert .provenTxs row) store with same | same
      · rw [same]
        exact ⟨⟨fun _ => rfl, fun _ => rfl⟩, owned⟩
      · obtain ⟨inserted, ran, rows, _⟩ := @insertEntity_rows hash store.database .provenTxs row
        have after : (callAlone hash (.insert .provenTxs row) store.database).2.records =
            withRow .provenTxs inserted (prepared .provenTxs row store.database).2.records := congrArg (fun result => result.2.records) ran
        rw [same, after]
        refine ⟨⟨fun key => ?_, fun key => ?_⟩, withRow_owned _ _ (rows.owned owned)⟩
        · exact (@withRow_other _ .provenTxReqs inserted _ _ (by simp)).trans (rows _ _)
        · exact (@withRow_other _ .transactions inserted _ _ (by simp)).trans (rows _ _)
    | _ => exact quiet.elim
  | update table key changes =>
    cases table with
    | outputs =>
      rcases @execInterrupted_update hash .outputs key changes store with same | ⟨existing, _, rows⟩
      · exact ⟨same.statusesKept, same.owned owned⟩
      · refine ⟨⟨fun key => ?_, fun key => ?_⟩, rows.owned (withRow_owned _ _ owned)⟩
        · exact (rows _ _).trans (@withRow_other _ .provenTxReqs _ _ _ (by simp))
        · exact (rows _ _).trans (@withRow_other _ .transactions _ _ _ (by simp))
    | _ => exact quiet.elim

theorem transaction_written {id changes} (keeps : changes.transactionId = none)
    (owned : RowsOwned store.database.records) :
    RowsOwned (execInterrupted hash (.update .transactions id changes) store).2.database.records ∧
      (∀ key, (execInterrupted hash (.update .transactions id changes) store).2.database.records.row .provenTxReqs key =
        store.database.records.row .provenTxReqs key) ∧
      ∀ other, other ≠ id → (execInterrupted hash (.update .transactions id changes) store).2.database.records.row .transactions (.id other) =
        store.database.records.row .transactions (.id other) := by
  rcases @execInterrupted_update hash .transactions id changes store with same | ⟨existing, found, rows⟩
  · exact ⟨same.owned owned, same .provenTxReqs, fun other _ => same .transactions (.id other)⟩
  · have own : rowKey .transactions (updatedRow hash .transactions changes existing.value) = .id id := by
      have key : rowKey .transactions existing.value = .id id := owned .transactions _ existing found
      simpa [rowKey, updatedRow, TransactionUpdate.spread, keeps] using key
    refine ⟨rows.owned (withRow_owned _ _ owned), fun key => ?_, fun other different => ?_⟩
    · exact (rows _ _).trans (@withRow_other _ .provenTxReqs _ _ _ (by simp))
    · refine (rows _ _).trans (withRow_other _ _ fun both => different ?_)
      cases own.symm.trans both.2.symm
      rfl

theorem request_written {id changes} (keeps : changes.provenTxReqId = none)
    (owned : RowsOwned store.database.records) :
    RowsOwned (execInterrupted hash (.update .provenTxReqs id changes) store).2.database.records ∧
      (∀ key, (execInterrupted hash (.update .provenTxReqs id changes) store).2.database.records.row .transactions key =
        store.database.records.row .transactions key) ∧
      (∀ other, other ≠ id → (execInterrupted hash (.update .provenTxReqs id changes) store).2.database.records.row .provenTxReqs (.id other) =
        store.database.records.row .provenTxReqs (.id other)) ∧
      ((execInterrupted hash (.update .provenTxReqs id changes) store).2.database.records.row .provenTxReqs (.id id) =
          store.database.records.row .provenTxReqs (.id id) ∨
        ∃ existing next : Versioned TableProvenTxReq, store.database.records.row .provenTxReqs (.id id) = some existing ∧
          (execInterrupted hash (.update .provenTxReqs id changes) store).2.database.records.row .provenTxReqs (.id id) = some next ∧
          next.value = changes.spread existing.value) := by
  rcases @execInterrupted_update hash .provenTxReqs id changes store with same | ⟨existing, found, rows⟩
  · exact ⟨same.owned owned, same .transactions, fun other _ => same .provenTxReqs (.id other), .inl (same .provenTxReqs (.id id))⟩
  · have own : rowKey .provenTxReqs (updatedRow hash .provenTxReqs changes existing.value) = .id id := by
      have key : rowKey .provenTxReqs existing.value = .id id := owned .provenTxReqs _ existing found
      simpa [rowKey, updatedRow, ProvenTxReqUpdate.spread, keeps] using key
    have now := @withRow_same .provenTxReqs (updatedRow hash .provenTxReqs changes existing.value) store.database.records
    rw [own] at now
    refine ⟨rows.owned (withRow_owned _ _ owned), fun key => ?_, fun other different => ?_,
      .inr ⟨existing, _, found, (rows .provenTxReqs (.id id)).trans now, rfl⟩⟩
    · exact (rows _ _).trans (@withRow_other _ .transactions _ _ _ (by simp))
    · refine (rows _ _).trans (withRow_other _ _ fun both => different ?_)
      cases own.symm.trans both.2.symm
      rfl

/-- What a promised call makes of the requests: one may be written, with the same transactions. -/
def RequestsStep (before after : Records) : Prop :=
  ∀ id, after.row .provenTxReqs (.id id) = before.row .provenTxReqs (.id id) ∨
    ∃ existing next : Versioned TableProvenTxReq, before.row .provenTxReqs (.id id) = some existing ∧
      after.row .provenTxReqs (.id id) = some next ∧ (∀ tx, tx ∈ next.value.notify ↔ tx ∈ existing.value.notify) ∧
      Stays existing.value.status next.value.status

theorem RequestsStep.stay (step : RequestsStep before after) : RequestsStay before after := by
  intro id row stored
  rcases step id with same | ⟨existing, next, found, now, members, stays⟩
  · exact ⟨row, same.trans stored, fun _ => .rfl, .refl _⟩
  · cases found.symm.trans stored
    exact ⟨next, now, members, stays⟩

theorem RequestsStep.apart (step : RequestsStep before after) (apart : NotifyApart before) : NotifyApart after := by
  have earlier : ∀ id (row : Versioned TableProvenTxReq), after.row .provenTxReqs (.id id) = some row →
      ∃ old : Versioned TableProvenTxReq, before.row .provenTxReqs (.id id) = some old ∧ ∀ tx, tx ∈ row.value.notify → tx ∈ old.value.notify := by
    intro id row stored
    rcases step id with same | ⟨existing, next, found, now, members, _⟩
    · exact ⟨row, same.symm.trans stored, fun _ member => member⟩
    · cases now.symm.trans stored
      exact ⟨existing, found, fun tx => (members tx).mp⟩
  intro id other row another stored there tx here member
  obtain ⟨old, was, had⟩ := earlier id row stored
  obtain ⟨older, also, too⟩ := earlier other another there
  exact apart id other old older was also tx (had tx here) (too tx member)

theorem promised_cases (promised : Promised call past op store) :
    QuietCall op ∨ (∃ id changes, op = .update .transactions id changes) ∨ ∃ id changes, op = .update .provenTxReqs id changes := by
  cases op with
  | find => exact .inl trivial
  | allocateChangeInput => exact promised.elim
  | insert table row =>
    cases table with
    | provenTxs => exact .inl trivial
    | _ => exact promised.elim
  | update table key changes =>
    cases table with
    | outputs => exact .inl trivial
    | transactions => exact .inr (.inl ⟨key, changes, rfl⟩)
    | provenTxReqs => exact .inr (.inr ⟨key, changes, rfl⟩)
    | _ => exact promised.elim

theorem request_step {id changes} (promised : Promised call past (.update .provenTxReqs id changes) store)
    (may : MayWrite call id changes store.database.records) (owned : RowsOwned store.database.records) :
    RequestsStep store.database.records (execInterrupted hash (.update .provenTxReqs id changes) store).2.database.records := by
  obtain ⟨sameId, _, ⟨notify, notified⟩, _, status, sets, moves⟩ := promised
  obtain ⟨row, stored, members, _⟩ := may
  obtain ⟨_, _, others, written⟩ := @request_written hash store id changes sameId owned
  intro other
  by_cases here : other = id
  · subst here
    rcases written with same | ⟨existing, next, found, now, is⟩
    · exact .inl same
    · cases stored.symm.trans found
      refine .inr ⟨row, next, stored, now, fun tx => ?_, ?_⟩
      · rw [notified] at members
        have nextNotify : next.value.notify = notify := by rw [is]; simp [ProvenTxReqUpdate.spread, notified]
        rw [nextNotify]
        exact members tx
      · have nextStatus : next.value.status = status := by rw [is]; simp [ProvenTxReqUpdate.spread, sets]
        rw [nextStatus]
        exact (moves row stored).1
  · exact .inl (others other here)

/-- Rows are stored under their own keys, and no two requests notify the same transaction. -/
structure BroadcastStore (records : Records) : Prop where
  owned : RowsOwned records
  apart : NotifyApart records

theorem promised_steps (promised : Promised call past op store) (permitted : Permitted hash call past op store)
    (holds : BroadcastStore store.database.records) :
    BroadcastStore (execInterrupted hash op store).2.database.records ∧
      RequestsStep store.database.records (execInterrupted hash op store).2.database.records := by
  have unwritten : ∀ {after : Records}, (∀ key, after.row .provenTxReqs key = store.database.records.row .provenTxReqs key) → RowsOwned after →
      BroadcastStore after ∧ RequestsStep store.database.records after := by
    intro after same owned
    have step : RequestsStep store.database.records after := fun id => .inl (same (.id id))
    exact ⟨⟨owned, step.apart holds.apart⟩, step⟩
  rcases promised_cases promised with quiet | ⟨id, changes, rfl⟩ | ⟨id, changes, rfl⟩
  · obtain ⟨kept, owned⟩ := @quiet_keeps hash store op quiet holds.owned
    exact unwritten kept.requests owned
  · obtain ⟨owned, kept, _⟩ := @transaction_written hash store id changes promised.1 holds.owned
    exact unwritten kept owned
  · have step := @request_step hash store call past id changes promised permitted.2 holds.owned
    obtain ⟨owned, _⟩ := @request_written hash store id changes promised.1 holds.owned
    exact ⟨⟨owned, step.apart holds.apart⟩, step⟩

theorem promised_spares (promised : Promised call past op store) (spares : Spares opened op)
    (owned : RowsOwned store.database.records) :
    ∀ other, opened = some other → other.rest ≠ [] →
      (execInterrupted hash op store).2.database.records.row .provenTxReqs (.id other.provenTxReqId) =
          store.database.records.row .provenTxReqs (.id other.provenTxReqId) ∧
        ∀ id ∈ other.rest, (execInterrupted hash op store).2.database.records.row .transactions (.id id) =
          store.database.records.row .transactions (.id id) := by
  intro other is remains
  rcases promised_cases promised with quiet | ⟨id, changes, rfl⟩ | ⟨id, changes, rfl⟩
  · obtain ⟨kept, _⟩ := @quiet_keeps hash store op quiet owned
    exact ⟨kept.requests _, fun _ _ => kept.transactions _⟩
  · obtain ⟨_, kept, others⟩ := @transaction_written hash store id changes promised.1 owned
    refine ⟨kept _, fun another member => others another fun same => spares other is (same ▸ member)⟩
  · obtain ⟨_, kept, others, _⟩ := @request_written hash store id changes promised.1 owned
    exact ⟨others _ (spares other is remains), fun _ _ => kept _⟩

theorem broadcast_steady (owned : RowsOwned store.database.records) : (broadcastContract hash call).rely past store store :=
  ⟨owned, .refl _, fun _ _ _ => ⟨rfl, fun _ _ => rfl⟩⟩

theorem broadcast_trans (earlier : (broadcastContract hash call).rely past first second)
    (later : (broadcastContract hash call).rely past second third) : (broadcastContract hash call).rely past first third := by
  refine ⟨later.1, earlier.2.1.trans later.2.1, fun opened is remains => ?_⟩
  obtain ⟨request, transactions⟩ := earlier.2.2 opened is remains
  obtain ⟨again, still⟩ := later.2.2 opened is remains
  exact ⟨again.trans request, fun id member => (still id member).trans (transactions id member)⟩

end

theorem broadcast_contracted [DecidableEq ι] (hash) (setup : BroadcastSetup ι)
    (stable : ∀ caller past outcome before after, post caller past outcome before →
      (broadcastContract hash (setup.call caller)).rely past before after → post caller past outcome after) :
    Pool.Contracted (execInterrupted hash) (Apart hash setup) (fun store => BroadcastStore store.database.records)
      (fun caller => broadcastContract hash (setup.call caller)) post where
  steady _ _ _ holds := broadcast_steady holds.owned
  trans _ _ _ _ _ earlier later := broadcast_trans earlier later
  stable := stable
  permits _ _ op next _ allowed awaiting := (allowed op next awaiting).1
  keeps _ _ op next holds allowed awaiting promised := (promised_steps promised (allowed op next awaiting).1 holds).1
  spares _ _ other op next holds allowed awaiting promised different := by
    obtain ⟨permitted, apart⟩ := allowed op next awaiting
    obtain ⟨after, step⟩ := promised_steps promised permitted holds
    exact ⟨after.owned, step.stay, promised_spares promised (apart other different) holds.owned⟩

end
end WalletToolbox

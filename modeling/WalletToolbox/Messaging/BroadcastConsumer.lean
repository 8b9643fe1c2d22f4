import WalletToolbox.Messaging.TxBroadcasts
import WalletToolbox.Provider.ProvenTxReqs

/-! The broadcast of requests by a stream: the task that queues them, the consumer of a
delivery, and the adapter that records what has come of it. -/

namespace WalletToolbox
open Async EntityProvenTxReq

structure BroadcastAttemptRecord where
  message : TxBroadcastMessage
  results : List PostBeefResult
  outcome : BroadcastProviderOutcome

namespace BroadcastStorageAdapter

def loadReq (provenTxReqId : Nat) : StorageM TableProvenTxReq := do
  match ← verifyOneOrNone (← (StorageCall.find .provenTxReqs { provenTxReqId }).await) with
  | some req => return req
  | none => throw (.error "TxBroadcastMessage.provenTxReqId was not found in RocksDB storage")

def loadBroadcastRequest (mergeReqToBeef : TableProvenTxReq → StorageM Unit) (message : TxBroadcastMessage) : StorageM TableProvenTxReq := do
  let req ← loadReq message.provenTxReqId
  if req.txid ≠ message.txid then throw (.error "TxBroadcastMessage.txid does not match stored ProvenTxReq")
  else
    mergeReqToBeef req
    return req

def hasRecordedAttempt (req : TableProvenTxReq) (idempotencyKey : String) : Bool :=
  req.history.any fun note => note.properties.lookup "distributedBroadcastIdempotencyKey" = some (.text idempotencyKey)

def hasDoubleSpendResult (record : BroadcastAttemptRecord) : Bool :=
  record.results.any fun result => result.txidResults.any fun txidResult => txidResult.txid = record.message.txid && txidResult.doubleSpend

def statusesOf (record : BroadcastAttemptRecord) : ProvenTxReqStatus × Option TransactionStatus :=
  match record.outcome with
  | .accepted | .seen | .alreadySeen => (.unmined, some .unproven)
  | .rejectedTerminal => (if hasDoubleSpendResult record then .doubleSpend else .invalid, some .failed)
  | .rejectedRetryable | .rateLimited | .timeout => (.sending, some .sending)
  | .unknown | .malformed => (.unknown, none)

def outcomeNote (record : BroadcastAttemptRecord) (req : TableProvenTxReq) : ReqHistoryNote where
  what := "distributedBroadcastOutcome"
  properties := [("distributedBroadcastIdempotencyKey", .text record.message.idempotencyKey), ("outcome", .text record.outcome.text),
    ("providerAttempts", .text (";".intercalate (summarizePostBeefProviderAttemptsForTxid req.txid record.results)))] ++
    if (statusesOf record).2 = none then [("reconciliation_required", .flag true)] else []

section
variable (now : Clock)

def withOutcome (record : BroadcastAttemptRecord) (req : TableProvenTxReq) : TableProvenTxReq :=
  let set := setStatus now (statusesOf record).1 req
  addHistoryNote now (outcomeNote record req) false set

def recordOutcome (record : BroadcastAttemptRecord) (req : TableProvenTxReq) : StorageM Unit := do
  let noted := withOutcome now record req
  let _ ← updateStorageDynamicProperties noted
  match (statusesOf record).2 with
  | some txStatus => StorageRocksDb.transaction (StorageProvider.updateTransactionsStatus noted.notify txStatus)
  | none => return

def recordBroadcastAttempt (record : BroadcastAttemptRecord) : StorageM Unit := do
  let req := ofApi (← loadReq record.message.provenTxReqId)
  if hasRecordedAttempt req record.message.idempotencyKey ∨ req.status = .completed ∨ req.status = .unmined then return
  else recordOutcome now record req

end
end BroadcastStorageAdapter

/-- A delivery of a message: its payload, if it can be read, how often it was delivered,
and what the providers and the dead letter stream will answer. -/
structure BroadcastDelivery where
  payload : Except WalletError TxBroadcastMessage
  deliveryCount : Option Nat
  maxDeliver : Nat := 3
  results : Except WalletError (List PostBeefResult)
  deadLetter : Except WalletError Unit := .ok ()

inductive Disposition where
  | ack | nak | term
deriving DecidableEq, Repr

structure Consumed where
  outcome : Option BroadcastProviderOutcome
  disposition : Disposition
deriving DecidableEq, Repr

namespace BroadcastConsumer

structure Options where
  mergeReqToBeef : TableProvenTxReq → StorageM Unit
  rawTxHash : List UInt8 → String

def hasExceededMaxDeliver (delivery : BroadcastDelivery) : Bool := delivery.deliveryCount.any (delivery.maxDeliver ≤ ·)

def caught (delivery : BroadcastDelivery) (outcome : Option BroadcastProviderOutcome) (error : WalletError) : StorageM Consumed :=
  if isMalformedBroadcastError error ∨ hasExceededMaxDeliver delivery then do
    .ofExcept delivery.deadLetter
    return ⟨outcome, .term⟩
  else return ⟨outcome, .nak⟩

def broadcast (options : Options) (delivery : BroadcastDelivery) : StorageM BroadcastAttemptRecord := do
  let message ← .ofExcept delivery.payload
  .ofExcept message.validate
  let req ← BroadcastStorageAdapter.loadBroadcastRequest options.mergeReqToBeef message
  .ofExcept (message.validateRawTxHash (options.rawTxHash req.rawTx))
  let results ← .ofExcept delivery.results
  return ⟨message, results, classifyBroadcastResults results message.txid⟩

/-- A recorded outcome is acknowledged, or asks for another delivery. -/
def settleOutcome (delivery : BroadcastDelivery) (outcome : BroadcastProviderOutcome) : StorageM Consumed :=
  if outcome.isRetryable then
    if hasExceededMaxDeliver delivery then
      match delivery.deadLetter with
      | .ok _ => return ⟨some outcome, .term⟩
      | .error error => caught delivery (some outcome) error
    else return ⟨some outcome, .nak⟩
  else return ⟨some outcome, .ack⟩

def consumeJetStreamMessage (now : Clock) (options : Options) (delivery : BroadcastDelivery) : StorageM Consumed := do
  match ← (broadcast options delivery).settle with
  | .error error => caught delivery none error
  | .ok record =>
    match ← (BroadcastStorageAdapter.recordBroadcastAttempt now record).settle with
    | .error error => caught delivery (some record.outcome) error
    | .ok _ => settleOutcome delivery record.outcome

end BroadcastConsumer

structure BroadcastPublisher where
  chain : String
  source : String := "wallet-toolbox-broadcast-publisher"
  walletStorageIdentityKey : String
  messageId : Nat → Nat → String
  rawTxHash : List UInt8 → String
  publishTxBroadcast : TxBroadcastMessage → Except WalletError Unit

def BroadcastPublisher.createMessage (publisher : BroadcastPublisher) (req : TableProvenTxReq) : TxBroadcastMessage :=
  let attempt := req.attempts + 1
  { messageId := publisher.messageId req.provenTxReqId attempt
    idempotencyKey := createTxBroadcastIdempotencyKey publisher.chain publisher.walletStorageIdentityKey req.provenTxReqId req.txid attempt
    source := publisher.source
    chain := publisher.chain
    txid := req.txid
    rawTxHash := publisher.rawTxHash req.rawTx
    attempt
    walletStorageIdentityKey := publisher.walletStorageIdentityKey
    provenTxReqId := req.provenTxReqId }

namespace TaskSendWaiting

def queuedNote (txid : String) (attempt : Nat) : ReqHistoryNote where
  what := "queuedForDistributedBroadcast"
  properties := [("stream", .text "TX_BROADCAST"), ("attempt", .number attempt), ("txid", .text txid)]

/-- A request once its message is published. -/
def queued (now : Clock) (req : TableProvenTxReq) : TableProvenTxReq :=
  let attempt := req.attempts + 1
  addHistoryNote now (queuedNote req.txid attempt) false
    (setStatus now .sending { req with attempts := attempt })

/-- The requests of a work item, as they were read. -/
def publishWorkItemToBroadcastStream (now : Clock) (publisher : BroadcastPublisher) : List TableProvenTxReq → StorageM Unit
  | [] => return
  | reqApi :: rest => do
    let req := ofApi reqApi
    .ofExcept (publisher.publishTxBroadcast (publisher.createMessage req))
    let _ ← updateStorageDynamicProperties (queued now req)
    publishWorkItemToBroadcastStream now publisher rest

end TaskSendWaiting
end WalletToolbox

import WalletToolbox.Effects.EventRuns
import WalletToolbox.Storage.Keys

/-! The review of requests in status `doubleSpend`, a page at a time. Where the next page
starts is written into the log of a run, and read from the last few logs. -/

namespace WalletToolbox

inductive TxidStatus where
  | mined | known | unknown
deriving DecidableEq, Repr

structure StatusForTxidResult where
  txid : String
  depth : Option Nat
  status : TxidStatus
deriving DecidableEq, Repr

inductive StatusOutcome where
  | success | error
deriving DecidableEq, Repr

structure GetStatusForTxidsResult where
  name : String
  status : StatusOutcome
  error : Option WalletError := none
  results : List StatusForTxidResult := []
deriving DecidableEq, Repr

structure StatusProvider where
  providerName : String
  service : List String → Option GetStatusForTxidsResult

namespace Services

def getStatusForTxidsBatchLimit : Nat := 20

def statusBatches (txids : List String) : List (List String) :=
  (List.range ((txids.length + getStatusForTxidsBatchLimit - 1) / getStatusForTxidsBatchLimit)).map fun batch =>
    (txids.drop (batch * getStatusForTxidsBatchLimit)).take getStatusForTxidsBatchLimit

/-- The first answer without success, or all results together. -/
def joinBatches (stc : StatusProvider) :
    Option WalletError → List StatusForTxidResult → List GetStatusForTxidsResult → GetStatusForTxidsResult
  | error, results, [] => { name := stc.providerName, status := .success, error, results }
  | error, results, r :: rest => if r.status ≠ .success then r else joinBatches stc (error.or r.error) (results ++ r.results) rest

def getStatusForTxidsBatched (stc : StatusProvider) (txids : List String) : Option GetStatusForTxidsResult :=
  ((statusBatches txids).mapM stc.service).map (joinBatches stc none [])

/-- The providers in the order in which they are tried. -/
def getStatusForTxids : List StatusProvider → List String → GetStatusForTxidsResult
  | [], _ => { name := "<noservices>", status := .error, error := some (.internal "No services available.") }
  | stc :: rest, txids =>
    match getStatusForTxidsBatched stc txids with
    | some r => if r.status = .success then r else getStatusForTxids rest txids
    | none => getStatusForTxids rest txids

end Services

structure DatedReq where
  req : TableProvenTxReq
  updated_at : Int
deriving DecidableEq, Repr

/-- The requests as storage lists them, by their ids. -/
structure ReqTable where
  rows : List DatedReq
  ordered : rows.Pairwise fun first second => first.req.provenTxReqId < second.req.provenTxReqId

namespace ReqTable

def doubleSpends (table : ReqTable) : List DatedReq := table.rows.filter (·.req.status = .doubleSpend)

def page (limit offset : Nat) (table : ReqTable) : List DatedReq := (table.doubleSpends.drop offset).take limit

def setUnfail (ids : List Nat) (row : DatedReq) : DatedReq :=
  if row.req.provenTxReqId ∈ ids then { row with req := { row.req with status := .unfail } } else row

theorem setUnfail_id (ids) (row) : (setUnfail ids row).req.provenTxReqId = row.req.provenTxReqId := by
  unfold setUnfail
  split
  · rfl
  · rfl

def unfail (ids : List Nat) (table : ReqTable) : ReqTable where
  rows := table.rows.map (setUnfail ids)
  ordered := List.pairwise_map.mpr (table.ordered.imp fun less => by rw [setUnfail_id, setUnfail_id]; exact less)

end ReqTable

structure ReviewDoubleSpendsCheckpoint where
  reviewLimit : Nat
  minAgeMinutes : Int
  reviewed : Nat
  unfails : Nat
  provenTxReqIds : List Nat
  resumeOffset : Option Nat
  expectedProvenTxReqId : Option Nat
deriving DecidableEq, Repr

structure TaskReviewDoubleSpends where
  reviewLimit : Nat := 100
  minAgeMinutes : Int := 60

namespace TaskReviewDoubleSpends

def updatedBefore (task : TaskReviewDoubleSpends) (now : Int) : Int := now - task.minAgeMinutes * 60 * 1000

def getLastReviewedCheckpoint (events : List ReviewDoubleSpendsCheckpoint) : Option (Nat × Option Nat) :=
  ((events.take 5).find? (·.resumeOffset.isSome)).bind fun parsed => parsed.resumeOffset.map fun resumeOffset => (resumeOffset, parsed.expectedProvenTxReqId)

/-- After the row that was retained last, or from the start when it is not where it was. -/
def offsetFor (table : ReqTable) : Option (Nat × Option Nat) → Nat
  | none => 0
  | some (resumeOffset, none) => resumeOffset
  | some (resumeOffset, some expectedProvenTxReqId) =>
    match table.page 1 resumeOffset with
    | verify :: _ => if verify.req.provenTxReqId = expectedProvenTxReqId then resumeOffset + 1 else 0
    | [] => 0

def findReqsToReview (task : TaskReviewDoubleSpends) (offset : Nat) (updatedBefore : Int) (table : ReqTable) : List DatedReq :=
  (table.page task.reviewLimit offset).filter (·.updated_at ≤ updatedBefore)

def statusByTxid (gsr : GetStatusForTxidsResult) (txid : String) : Option TxidStatus :=
  (gsr.results.reverse.find? (·.txid = txid)).map (·.status)

def retains (gsr : GetStatusForTxidsResult) (row : DatedReq) : Bool := statusByTxid gsr row.req.txid = some .unknown

def unfails (gsr : GetStatusForTxidsResult) (reqs : List DatedReq) : List DatedReq := reqs.filter fun row => !retains gsr row

def checkpoint (task : TaskReviewDoubleSpends) (sourceOffset : Nat) (gsr : GetStatusForTxidsResult) (reqs : List DatedReq) :
    ReviewDoubleSpendsCheckpoint :=
  let retained := reqs.filter (retains gsr)
  { reviewLimit := task.reviewLimit
    minAgeMinutes := task.minAgeMinutes
    reviewed := reqs.length
    unfails := (unfails gsr reqs).length
    provenTxReqIds := (unfails gsr reqs).map (·.req.provenTxReqId)
    resumeOffset := retained.getLast?.map fun _ => sourceOffset + retained.length - 1
    expectedProvenTxReqId := retained.getLast?.map (·.req.provenTxReqId) }

end TaskReviewDoubleSpends

/-- A run of the task: what was listed at its time, and what it reviewed. -/
structure DoubleSpendReview where
  now : Int
  listed : List DatedReq
  reviewed : List DatedReq

/-- A request that was moved to `unfail`, and the providers that were asked about it. -/
structure Unfailing where
  row : DatedReq
  services : List StatusProvider

/-- The logs of the task with the newest first, and its runs with the newest last. -/
structure ReviewRun where
  table : ReqTable
  events : List ReviewDoubleSpendsCheckpoint := []
  reviews : List DoubleSpendReview := []
  unfailed : List Unfailing := []
  clock : Int := 0

inductive ReviewEvent where
  | runTask (services : List StatusProvider)
  | rejected (services : List StatusProvider) (moved : Nat)
  | storageChanged (table : ReqTable)

namespace ReviewRun
open TaskReviewDoubleSpends

def offset (run : ReviewRun) : Nat := offsetFor run.table (getLastReviewedCheckpoint run.events)

def reqsToReview (task : TaskReviewDoubleSpends) (run : ReviewRun) : List DatedReq :=
  findReqsToReview task run.offset (updatedBefore task run.clock) run.table

def answer (task : TaskReviewDoubleSpends) (services : List StatusProvider) (run : ReviewRun) : GetStatusForTxidsResult :=
  Services.getStatusForTxids services ((run.reqsToReview task).map (·.req.txid))

def move (services : List StatusProvider) (rows : List DatedReq) (run : ReviewRun) : ReviewRun :=
  { run with table := run.table.unfail (rows.map (·.req.provenTxReqId)), unfailed := run.unfailed ++ rows.map fun row => { row, services } }

def runTask (task : TaskReviewDoubleSpends) (services : List StatusProvider) (run : ReviewRun) : ReviewRun :=
  let reqs := run.reqsToReview task
  let reviews := run.reviews ++ [{ now := run.clock, listed := run.table.doubleSpends, reviewed := reqs }]
  if reqs = [] then { run with reviews }
  else
    let gsr := run.answer task services
    { move services (unfails gsr reqs) run with reviews, events := checkpoint task run.offset gsr reqs :: run.events }

def act (task : TaskReviewDoubleSpends) (run : ReviewRun) : ReviewEvent → ReviewRun
  | .runTask services => run.runTask task services
  | .rejected services moved => run.move services ((unfails (run.answer task services) (run.reqsToReview task)).take moved)
  | .storageChanged table => { run with table }

/-- An event at its time. -/
def step (task : TaskReviewDoubleSpends) (run : ReviewRun) (event : Int × ReviewEvent) : Option ReviewRun :=
  if run.clock ≤ event.1 then some (act task { run with clock := event.1 } event.2) else none

end ReviewRun
end WalletToolbox

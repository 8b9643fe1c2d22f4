import WalletToolbox.Monitor.TaskReviewDoubleSpends
import WalletToolbox.Provider.EntityProvenTxReq

/-! The task that sends the waiting requests. A run reads a page of them, completes their
batches, leaves out what is too young, and groups the rest into items of work; when the
requests that are being sent already are taken along is decided by the trigger. -/

namespace WalletToolbox

/-- How a provider cuts its pages: `StorageKnex` and `StorageIdb` out of the rows in the
statuses asked for, `StorageRocksDb` out of all rows, before it looks at their status. -/
inductive Paging where
  | ofStatus
  | ofAll
deriving DecidableEq

def DatedReq.batch (row : DatedReq) : Option String := truthyText row.req.batch

namespace ReqTable

def waiting (status : List ProvenTxReqStatus) (table : ReqTable) : List DatedReq := table.rows.filter (·.req.status ∈ status)

def findPage (paging : Paging) (status : List ProvenTxReqStatus) (limit : Nat) (table : ReqTable) : List DatedReq :=
  match paging with
  | .ofStatus => (table.waiting status).take limit
  | .ofAll => (table.rows.take limit).filter (·.req.status ∈ status)

def findBatch (status : List ProvenTxReqStatus) (batch : String) (table : ReqTable) : List DatedReq :=
  table.rows.filter fun row => row.req.batch = some batch && row.req.status ∈ status

end ReqTable

structure SendWaitingWorkItem where
  reqApi : DatedReq
  reqs : List DatedReq

/-- A task with what it remembers. Times and intervals are milliseconds. -/
structure TaskSendWaiting where
  triggerMsecs : Nat := 1000
  agedMsecs : Nat := 1000
  sendingMsecs : Nat := 5 * 60 * 1000
  triggerQuickMsecs : Nat := 1000
  chunkLimit : Nat := 500
  lastRunMsecsSinceEpoch : Int := 0
  lastSendingRunMsecsSinceEpoch : Option Int := none
  includeSending : Bool := true
  triggerNextMsecs : Int := triggerQuickMsecs

namespace TaskSendWaiting

def fresh (task : TaskSendWaiting) : TaskSendWaiting :=
  { task with
    lastRunMsecsSinceEpoch := 0, lastSendingRunMsecsSinceEpoch := none, includeSending := true, triggerNextMsecs := task.triggerQuickMsecs }

def sendingDue (now : Int) (task : TaskSendWaiting) : Bool :=
  match task.lastSendingRunMsecsSinceEpoch with
  | none => true
  | some last => last + task.sendingMsecs < now

def trigger (now : Int) (task : TaskSendWaiting) : TaskSendWaiting :=
  { task with
    includeSending := task.sendingDue now
    lastSendingRunMsecsSinceEpoch := if task.sendingDue now then some now else task.lastSendingRunMsecsSinceEpoch }

def waitingStatus (includeSending : Bool) : List ProvenTxReqStatus := if includeSending then [.unsent, .sending] else [.unsent]

/-- The requests of a batch that are not among the expanded ones yet. -/
def unseenReqs : List Nat → List DatedReq → List DatedReq
  | _, [] => []
  | seenReqIds, batchReq :: rest =>
    if batchReq.req.provenTxReqId ∈ seenReqIds then unseenReqs seenReqIds rest
    else batchReq :: unseenReqs (batchReq.req.provenTxReqId :: seenReqIds) rest

/-- The first request of a batch brings the whole batch along. -/
def expandBatches (batchReqsByName : String → List DatedReq) : List Nat → List String → List DatedReq → List DatedReq
  | _, _, [] => []
  | seenReqIds, seenBatches, req :: rest =>
    if req.req.provenTxReqId ∈ seenReqIds then expandBatches batchReqsByName seenReqIds seenBatches rest
    else
      match req.batch with
      | none => req :: expandBatches batchReqsByName (req.req.provenTxReqId :: seenReqIds) seenBatches rest
      | some batch =>
        if batch ∈ seenBatches then req :: expandBatches batchReqsByName (req.req.provenTxReqId :: seenReqIds) seenBatches rest
        else
          let batchReqs := unseenReqs seenReqIds (batchReqsByName batch)
          batchReqs ++ expandBatches batchReqsByName (batchReqs.map (·.req.provenTxReqId) ++ seenReqIds) (batch :: seenBatches) rest

def isAged (agedLimit : Int) (batchReqs : List DatedReq) : Bool :=
  (batchReqs.map (·.updated_at)).max?.all (· < agedLimit)

/-- A batch is as old as its youngest request. -/
def filterAgedReqs (agedLimit : Int) (reqs : List DatedReq) : List String → List DatedReq → List DatedReq
  | _, [] => []
  | seenBatches, req :: rest =>
    match req.batch with
    | none => if req.updated_at < agedLimit then req :: filterAgedReqs agedLimit reqs seenBatches rest else filterAgedReqs agedLimit reqs seenBatches rest
    | some batch =>
      if batch ∈ seenBatches then filterAgedReqs agedLimit reqs seenBatches rest
      else
        let batchReqs := reqs.filter (·.req.batch = some batch)
        if isAged agedLimit batchReqs then batchReqs ++ filterAgedReqs agedLimit reqs (batch :: seenBatches) rest
        else filterAgedReqs agedLimit reqs (batch :: seenBatches) rest

/-- The items of `processUnsent`: a batch is read once more, and its requests are not looked
at again. -/
def workItems (findBatch : String → List DatedReq) (reqApiIds : List Nat) : List Nat → List DatedReq → List SendWaitingWorkItem
  | _, [] => []
  | groupedReqIds, reqApi :: rest =>
    if reqApi.req.provenTxReqId ∈ groupedReqIds then workItems findBatch reqApiIds groupedReqIds rest
    else if reqApi.req.status ≠ .unsent ∧ reqApi.req.status ≠ .sending then workItems findBatch reqApiIds groupedReqIds rest
    else
      match reqApi.batch with
      | none => { reqApi, reqs := [reqApi] } :: workItems findBatch reqApiIds groupedReqIds rest
      | some batch =>
        let batchReqApis := findBatch batch
        { reqApi, reqs := batchReqApis } ::
          workItems findBatch reqApiIds ((batchReqApis.map (·.req.provenTxReqId)).filter (· ∈ reqApiIds) ++ groupedReqIds) rest

def prioritized (items : List SendWaitingWorkItem) : List SendWaitingWorkItem :=
  items.insertionSort fun first second => second.reqApi.req.attempts ≤ first.reqApi.req.attempts

structure Chunk where
  reqs : List DatedReq
  filteredReqs : List DatedReq
  agedReqs : List DatedReq
  items : List SendWaitingWorkItem

/-- A run, with the rows as they are when the page is read, when each batch is read to
complete it, and when it is read again. -/
def chunk (paging : Paging) (now : Int) (table : ReqTable) (expanding grouping : String → ReqTable) (task : TaskSendWaiting) : Chunk :=
  let status := waitingStatus task.includeSending
  let reqs := table.findPage paging status task.chunkLimit
  let filteredReqs := expandBatches (fun batch => (expanding batch).findBatch status batch) [] [] reqs
  let agedReqs := filterAgedReqs (now - task.agedMsecs) filteredReqs [] filteredReqs
  { reqs
    filteredReqs
    agedReqs
    items := prioritized (workItems (fun batch => (grouping batch).findBatch status batch) (agedReqs.map (·.req.provenTxReqId)) [] agedReqs) }

/-- When the next run is due, by what this one has done. -/
def nextMsecs (now : Int) (chunk : Chunk) (task : TaskSendWaiting) : Int :=
  if chunk.reqs = [] then task.triggerMsecs
  else if task.chunkLimit ≤ chunk.reqs.length then task.triggerQuickMsecs
  else if chunk.agedReqs.length < chunk.filteredReqs.length then
    chunk.filteredReqs.foldl (fun ageAllMsecs req => max ageAllMsecs (req.updated_at + task.agedMsecs - now)) 0
  else task.triggerMsecs

end TaskSendWaiting

structure ExecutedRun where
  now : Int
  includeSending : Bool
  table : ReqTable
  chunk : TaskSendWaiting.Chunk

structure SendRun where
  task : TaskSendWaiting
  table : ReqTable
  /-- The time of a trigger that has taken the sending requests along, until a run has. -/
  pending : Option Int := none
  runs : List ExecutedRun := []

inductive SendEvent where
  /-- The rows change: others write them, and the work of a run does. -/
  | write (table : ReqTable)
  | trigger (now : Int)
  /-- A run, by the monitor's loop, which notes when it has finished, or by its name. Its work
  may reject. -/
  | runTask (now : Int) (expanding grouping : String → ReqTable) (rejects : Bool) (finished : Option Int)
  | rejected (finished : Option Int)

namespace SendRun

def start (task : TaskSendWaiting) (table : ReqTable) : SendRun := { task := task.fresh, table }

def finish (finished : Option Int) (task : TaskSendWaiting) : TaskSendWaiting :=
  { task with lastRunMsecsSinceEpoch := finished.getD task.lastRunMsecsSinceEpoch }

def step (paging : Paging) (run : SendRun) : SendEvent → Option SendRun
  | .write table => some { run with table }
  | .trigger now => some { run with
      task := run.task.trigger now, pending := if run.task.sendingDue now then some now else run.pending }
  | .runTask now expanding grouping rejects finished =>
    let chunk := run.task.chunk paging now run.table expanding grouping
    some { run with
      task := finish finished (if rejects then run.task else { run.task with triggerNextMsecs := run.task.nextMsecs now chunk })
      pending := if run.task.includeSending then none else run.pending
      runs := run.runs ++ [{ now, includeSending := run.task.includeSending, table := run.table, chunk }] }
  | .rejected finished => some { run with task := finish finished run.task }

end SendRun
end WalletToolbox

import WalletToolbox.Effects.EventRuns
import WalletToolbox.Proving.ProofPaths

/-! One request over time. Methods hold copies of its row, change them and write them back;
`getProofs` applies a timeout to the copy that it was given. -/

namespace WalletToolbox
open EntityProvenTxReq EntityProvenTx

namespace TaskCheckForProofs

inductive ProofCheck where
  | notReady
  | finish (req : TableProvenTxReq)
  | timeout (req : TableProvenTxReq)
  | ask (req : TableProvenTxReq)

def checkReq (sdk : MerklePaths) (options : ProofOptions) (reqApi : TableProvenTxReq) : ProofCheck :=
  let req := ofApi reqApi
  if options.ignoreStatus = false ∧ reqApi.status ∉ readyStatuses then .notReady
  else if req.provenTxId ≠ none then .finish (setStatus options.now .completed { req with notified := false })
  else if sdk.txidOf req.rawTx ≠ req.txid then .finish (setStatus options.now .invalid { req with notified := false })
  else if options.ignoreStatus = false ∧ options.unprovenAttemptsLimit < req.attempts then
    .timeout (applyProofTimeout options.now options.maxRebroadcastAttempts req)
  else .ask req

def givesUp (options : ProofOptions) (req : TableProvenTxReq) (result : GetMerklePathResult) : Bool :=
  result.merklePath.isNone && !(truthyText result.name = none ∧ result.error = none) &&
    (getProofAttemptsLimit < req.attempts ∧ getProofMinutes < options.ageInMinutes (noteResult options result.notes req))

end TaskCheckForProofs
open TaskCheckForProofs

/-- What `getProofs` awaits with its copy; the other methods' copies are free. -/
inductive CopyPhase where
  | free
  | listed
  | asking
  /-- The write of a proof's request, then its rereading, then the proof's own update. -/
  | proving (proven : TableProvenTx)
  | rereading (proven : TableProvenTx)
  | storing (proven : TableProvenTx)
  | settling
  | settled
  | finishing
  | done

/-- With the version of the row that it was read from or written as, whether the request has
had a broadcast status when the copy was taken or since, and the resets since. -/
structure ReqCopy where
  req : TableProvenTxReq
  read : Nat
  phase : CopyPhase
  had : Bool
  resets : Nat := 0

/-- A timeout of a copy: whether the request had ever had a broadcast status, how often it had
been reset, and what became of it. -/
structure ProofTimeout where
  copy : Nat
  had : Bool
  cycles : Nat
  status : ProvenTxReqStatus
deriving DecidableEq

structure ReqRun where
  stored : TableProvenTxReq
  version : Nat := 0
  copies : List ReqCopy := []
  had : Bool
  cycles : Nat := 0
  timeouts : List ProofTimeout := []

inductive ReqEvent where
  | load
  | list
  | refresh (copy : Nat)
  | setStatus (copy : Nat) (status : ProvenTxReqStatus)
  | addHistoryNote (copy : Nat) (note : ReqHistoryNote) (noDupes : Bool)
  | mergeHistory (copy : Nat) (ei : TableProvenTxReq)
  | assign (copy : Nat) (provenTxId : Option Nat) (attempts : Nat) (notified : Bool) (batch : Option String) (notify : List Nat)
  | write (copy : Nat)
  | writeWhole (copy : Nat)
  /-- The writes that hold no copy: `processAction` and `TaskReviewDoubleSpends`. -/
  | storeUnsent (batch : Option String)
  | storeBatch (batch : Option String)
  | storeUnfail
  | check (copy : Nat) (options : ProofOptions)
  | answered (copy : Nat) (options : ProofOptions) (result : GetMerklePathResult)
  | proofStored (copy : Nat) (provenTxId : Nat) (isNew : Bool) (notes : List ReqHistoryNote)

namespace ReqRun
section
variable (sdk : MerklePaths) (now : Clock) (maxRebroadcastAttempts : Nat)

def hadStatus (req : TableProvenTxReq) : Bool := wasBroadcastStatuses.contains req.status

def recorded (req : TableProvenTxReq) : Bool := req.history.any saysBroadcast

/-- A run starts with a row that was inserted or synchronized, with what it was reset before. -/
def start (stored : TableProvenTxReq) : ReqRun where
  stored
  had := stored.wasBroadcast || hadStatus stored || recorded stored
  cycles := stored.rebroadcastAttempts

def take (phase : CopyPhase) (run : ReqRun) : ReqRun :=
  { run with copies := run.copies ++ [{ req := ofApi run.stored, read := run.version, phase, had := run.had }] }

def setCopy (number : Nat) (copy : ReqCopy) (run : ReqRun) : ReqRun := { run with copies := run.copies.set number copy }

/-- The row is written from a copy. -/
def store (number : Nat) (copy : ReqCopy) (phase : CopyPhase) (stored : TableProvenTxReq) (run : ReqRun) : ReqRun :=
  setCopy number { copy with read := run.version + 1, phase, resets := 0 }
    { run with stored, version := run.version + 1, had := run.had || copy.had, cycles := run.cycles + copy.resets }

def reread (number : Nat) (phase : CopyPhase) (run : ReqRun) : ReqRun :=
  setCopy number { req := ofApi run.stored, read := run.version, phase, had := run.had } run

def storePart (update : ProvenTxReqUpdate) (run : ReqRun) : ReqRun :=
  { run with stored := update.spread run.stored, version := run.version + 1 }

def timeOut (number : Nat) (copy : ReqCopy) (phase : CopyPhase) (req : TableProvenTxReq) (run : ReqRun) : ReqRun :=
  setCopy number { copy with req, phase, resets := copy.resets + if req.status = .unsent then 1 else 0 }
    { run with timeouts := run.timeouts ++
        [{ copy := number, had := run.had || copy.had, cycles := run.cycles + copy.resets, status := req.status }] }

def answer (options : ProofOptions) (result : GetMerklePathResult) (number : Nat) (copy : ReqCopy) (run : ReqRun) : ReqRun :=
  if result.header.any (options.maxAcceptableHeight < ·.height) then setCopy number { copy with phase := .done } run
  else
    match fromReq sdk options copy.req result (options.countsAsAttempt && copy.req.status ≠ .nosend) with
    | .error _ => setCopy number { copy with phase := .done } run
    | .ok (some proven, req) => setCopy number { copy with req, phase := .proving proven } run
    | .ok (none, req) =>
      let tried := if options.countsAsAttempt ∧ req.status ∈ attemptStatuses then { req with attempts := req.attempts + 1 } else req
      if givesUp options copy.req result then timeOut number copy .settling tried run
      else setCopy number { copy with req := tried, phase := .settling } run

def takenOver (r req : TableProvenTxReq) (provenTxId : Nat) : TableProvenTxReq :=
  { EntityProvenTxReq.setStatus now r.status req with history := r.history, provenTxId := some provenTxId, notified := true }

def takeOver (number : Nat) (copy : ReqCopy) (r : TableProvenTxReq) (provenTxId : Nat) (run : ReqRun) : ReqRun :=
  setCopy number { copy with
    req := takenOver now r copy.req provenTxId, read := run.version, phase := .settling, had := copy.had || hadStatus r } run

def storeProof (number : Nat) (copy : ReqCopy) (provenTxId : Nat) (isNew : Bool) (notes : List ReqHistoryNote) (run : ReqRun) : ReqRun :=
  let req := ofApi run.stored
  if req.provenTxId = none ∧ isNew = true then
    let r := addHistoryNotes now notes (EntityProvenTxReq.setStatus now .completed { req with provenTxId := some provenTxId })
    takeOver now number copy r provenTxId
      { run with stored := (dynamics r).spread run.stored, version := run.version + 1, had := run.had || hadStatus r }
  else takeOver now number copy req provenTxId run

def actOn (number : Nat) (copy : ReqCopy) (run : ReqRun) : ReqEvent → Option ReqRun
  | .refresh _ =>
    match copy.phase with
    | .free => some (reread number .free run)
    | .rereading proven => some (reread number (.storing proven) run)
    | .settled => some (reread number .done run)
    | _ => none
  | .write _ =>
    let stored := (dynamics copy.req).spread run.stored
    match copy.phase with
    | .free => some (store number copy .free stored run)
    | .proving proven => some (store number copy (.rereading proven) stored run)
    | .settling => some (store number copy .settled stored run)
    | .finishing => some (store number copy .done stored run)
    | _ => none
  | .writeWhole _ =>
    match copy.phase with
    | .free => some (store number copy .free ((wholeRow copy.req).spread run.stored) run)
    | _ => none
  | .setStatus _ status =>
    match copy.phase with
    | .free =>
      let req := EntityProvenTxReq.setStatus now status copy.req
      some (setCopy number { copy with req, had := copy.had || hadStatus req } run)
    | _ => none
  | .addHistoryNote _ note noDupes =>
    match copy.phase with
    | .free =>
      let req := EntityProvenTxReq.addHistoryNote now note noDupes copy.req
      some (setCopy number { copy with req, had := copy.had || recorded req } run)
    | _ => none
  | .mergeHistory _ ei =>
    match copy.phase with
    | .free =>
      let req := EntityProvenTxReq.mergeHistory now ei copy.req
      some (setCopy number { copy with req, had := copy.had || recorded req } run)
    | _ => none
  | .assign _ provenTxId attempts notified batch notify =>
    match copy.phase with
    | .free => some (setCopy number { copy with req := { copy.req with provenTxId, attempts, notified, batch, notify } } run)
    | _ => none
  | .check _ options =>
    match copy.phase with
    | .listed =>
      match checkReq sdk { options with now, maxRebroadcastAttempts } copy.req with
      | .notReady => some (setCopy number { copy with phase := .done } run)
      | .finish req => some (setCopy number { copy with req, phase := .finishing, had := copy.had || hadStatus req } run)
      | .timeout req => some (timeOut number copy .finishing req run)
      | .ask req => some (setCopy number { copy with req, phase := .asking } run)
    | _ => none
  | .answered _ options result =>
    match copy.phase with
    | .asking => some (answer sdk { options with now, maxRebroadcastAttempts } result number copy run)
    | _ => none
  | .proofStored _ provenTxId isNew notes =>
    match copy.phase with
    | .storing _ => some (storeProof now number copy provenTxId isNew notes run)
    | _ => none
  | .load | .list | .storeUnsent _ | .storeBatch _ | .storeUnfail => none

def copyOf : ReqEvent → Option Nat
  | .load | .list | .storeUnsent _ | .storeBatch _ | .storeUnfail => none
  | .refresh copy | .setStatus copy _ | .addHistoryNote copy _ _ | .mergeHistory copy _ | .assign copy _ _ _ _ _ | .write copy | .writeWhole copy
  | .check copy _ | .answered copy _ _ | .proofStored copy _ _ _ => some copy

def step (run : ReqRun) (event : ReqEvent) : Option ReqRun :=
  match event with
  | .load => some (run.take .free)
  | .list => some (run.take .listed)
  | .storeUnsent batch => some (storePart { status := some .unsent, batch := batch.map some } run)
  | .storeBatch batch => some { run with stored := ({ batch := batch.map some } : ProvenTxReqUpdate).spread run.stored }
  | .storeUnfail => some (storePart { status := some .unfail } run)
  | event =>
    match copyOf event with
    | some number =>
      match run.copies[number]? with
      | some copy => actOn sdk now maxRebroadcastAttempts number copy run event
      | none => none
    | none => none

end
end ReqRun
end WalletToolbox

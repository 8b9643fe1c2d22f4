import WalletToolbox.Provider.AttemptToPostReqsToNetwork

/-! Sharing requests with the world: they are looked up, their Beefs merged and verified, and
they are posted at once or left to be sent later. What becomes of a post is reported for each
txid. -/

namespace WalletToolbox
open Async

inductive SendWithResultStatus where
  | unproven | sending | failed
deriving DecidableEq, Repr

structure SendWithResult where
  txid : String
  status : SendWithResultStatus
deriving DecidableEq, Repr

structure ReviewActionResult where
  txid : String
  status : AggregateStatus
  competingTxs : List String
  competingBeef : Option (List UInt8)
deriving DecidableEq, Repr

inductive GetReqsAndBeefStatus where
  | readyToSend | alreadySent | error | unknown
deriving DecidableEq, Repr

structure GetReqsAndBeefDetail where
  txid : String
  req : Option TableProvenTxReq := none
  proven : Option TableProvenTx := none
  status : GetReqsAndBeefStatus
  error : Option String := none

structure GetReqsAndBeefResult (Beef : Type) where
  beef : Beef
  details : List GetReqsAndBeefDetail

structure Sharing extends Posting where
  Beef : Type
  emptyBeef : Beef
  mergeReqToBeef : TableProvenTxReq → Beef → StorageM (Beef × Option WalletError)
  verifyBeef : Beef → Except WalletError Bool
  getBeefForTransaction : Beef → String → StorageM Beef
  toBinary : Beef → List UInt8
  batch : String

def errorStatuses : List ProvenTxReqStatus := [.unknown, .nonfinal, .invalid, .doubleSpend]

def alreadySentStatuses : List ProvenTxReqStatus := [.unmined, .callback, .unconfirmed, .completed]

def readyToSendStatuses : List ProvenTxReqStatus := [.sending, .unsent, .nosend, .unprocessed]

def classifyReqStatus (txid : String) (req : TableProvenTxReq) : GetReqsAndBeefDetail :=
  if req.status ∈ errorStatuses then
    { txid, req := some req, status := .error, error := some ("ERR_INVALID_PARAMETER: " ++ txid ++ " is not ready to send.") }
  else if req.status ∈ alreadySentStatuses then { txid, req := some req, status := .alreadySent }
  else if req.status ∈ readyToSendStatuses then
    if req.inputBEEF = none then
      { txid, req := some req, status := .error, error := some ("ERR_INTERNAL: " ++ txid ++ " req is missing rawTx or beef.") }
    else { txid, req := some req, status := .readyToSend }
  else
    { txid, req := some req, status := .error
      error := some ("ERR_INTERNAL: " ++ txid ++ " has unexpected req status " ++ req.status.text) }

def errorText (error : WalletError) : String := error.code ++ ": " ++ error.message

def findReqToShareDetail (txid : String) : StorageM GetReqsAndBeefDetail := do
  match ← verifyOneOrNone (← (StorageCall.find .provenTxs { txid }).await) with
  | some proven => return { txid, proven := some proven, status := .alreadySent }
  | none =>
    match ← verifyOneOrNone (← (StorageCall.find .provenTxReqs { txid }).await) with
    | none => return { txid, status := .error, error := some ("ERR_UNKNOWN_TXID: " ++ txid ++ " was not found.") }
    | some req => return classifyReqStatus txid req

def getReqToShareDetail (txid : String) : StorageM GetReqsAndBeefDetail :=
  (findReqToShareDetail txid).handle fun error => .done { txid, status := .unknown, error := some (errorText error) }

section
variable (now : Clock) (sharing : Sharing)

/-- A request whose Beef is not merged stays ready, with the error noted. -/
def mergeReadyReqs : List GetReqsAndBeefDetail → sharing.Beef → StorageM (GetReqsAndBeefResult sharing.Beef)
  | [], beef => return ⟨beef, []⟩
  | d :: rest, beef => do
    match d.status, d.req with
    | .readyToSend, some req => do
      let (beef, error) ← sharing.mergeReqToBeef req beef
      let r ← mergeReadyReqs rest beef
      return { r with details := { d with error := (error.map errorText).or d.error } :: r.details }
    | _, _ => do
      let r ← mergeReadyReqs rest beef
      return { r with details := d :: r.details }

def getReqsAndBeefToShareWithWorld (txids : List String) : StorageM (GetReqsAndBeefResult sharing.Beef) := do
  let details ← txids.mapM getReqToShareDetail
  mergeReadyReqs sharing details sharing.emptyBeef

def emptyReq : TableProvenTxReq where
  provenTxReqId := 0
  provenTxId := none
  status := .unknown
  attempts := 0
  notified := false
  txid := ""
  batch := none
  history := []
  notify := []
  rawTx := []
  inputBEEF := none
  wasBroadcast := false
  rebroadcastAttempts := 0

def GetReqsAndBeefStatus.sendWith : GetReqsAndBeefStatus → SendWithResultStatus
  | readyToSend => .sending
  | alreadySent => .unproven
  | error | unknown => .failed

def classifyReqDetails (details : List GetReqsAndBeefDetail) : List SendWithResult :=
  details.map fun getReq => ⟨getReq.txid, getReq.status.sendWith⟩

def readyToSendReqs (details : List GetReqsAndBeefDetail) : List TableProvenTxReq :=
  (details.filter (·.status = .readyToSend)).map fun getReq => EntityProvenTxReq.ofApi (getReq.req.getD emptyReq)

def verifyMergedBeef (beef : sharing.Beef) (reqs : List TableProvenTxReq) : StorageM Unit :=
  if reqs = [] then return
  else do
    if ← .ofExcept (sharing.verifyBeef beef) then return
    else throw (.internal "merged Beef failed validation.")

def updateProvenTxReq (update : ProvenTxReqUpdate) : List Nat → StorageM Unit
  | [] => return
  | id :: rest => do
    let _ ← (StorageCall.update .provenTxReqs id update).await
    updateProvenTxReq update rest

def updateTransactions (update : TransactionUpdate) : List Nat → StorageM Unit
  | [] => return
  | id :: rest => do
    let _ ← (StorageCall.update .transactions id update).await
    updateTransactions update rest

def delayReqs (batch : Option String) (reqs : List TableProvenTxReq) : StorageM Unit := do
  updateProvenTxReq { status := some .unsent, batch := some batch } (reqs.map TableProvenTxReq.provenTxReqId)
  updateTransactions { status := some .sending } (reqs.flatMap TableProvenTxReq.notify)

def assignBatch (batch : Option String) (reqs : List TableProvenTxReq) : StorageM (List TableProvenTxReq) :=
  match batch with
  | none => return reqs
  | some batch => do
    updateProvenTxReq { batch := some (some batch) } (reqs.map TableProvenTxReq.provenTxReqId)
    return reqs.map fun req => { req with batch := some batch }

def mergeBeefOfTxids : List String → sharing.Beef → StorageM sharing.Beef
  | [], beef => return beef
  | txid :: rest, beef => do
    let merged ← sharing.getBeefForTransaction beef txid
    mergeBeefOfTxids rest merged

def createMergedBeefOfTxids (txids : List String) : StorageM (List UInt8) := do
  return sharing.toBinary (← mergeBeefOfTxids sharing txids sharing.emptyBeef)

def AggregateStatus.sendWith : AggregateStatus → SendWithResultStatus
  | success => .unproven
  | doubleSpend | invalidTx => .failed
  | serviceError => .sending

def competingBeefOf (status : AggregateStatus) (competingTxs : List String) : StorageM (Option (List UInt8)) :=
  match status with
  | .doubleSpend => do return some (← createMergedBeefOfTxids sharing competingTxs)
  | .success | .invalidTx | .serviceError => return none

def unexpectedStatus (status : String) : WalletError :=
  .internal ("processAction with notDelayed status " ++ status ++ " should not occur.")

def aggregateActionResult (details : List PostReqsToNetworkDetails) (ar : SendWithResult) : StorageM (SendWithResult × ReviewActionResult) := do
  match details.find? (·.txid = ar.txid) with
  | none => throw (.internal ("missing details for " ++ ar.txid))
  | some d =>
    match d.status with
    | .posted status =>
      let competingBeef ← competingBeefOf sharing status d.competingTxs
      return (⟨ar.txid, status.sendWith⟩, ⟨d.txid, status, d.competingTxs, competingBeef⟩)
    | .unknown => throw (unexpectedStatus "unknown")
    | .invalid => throw (unexpectedStatus "invalid")

def aggregateActionResults (swr : List SendWithResult) (details : List PostReqsToNetworkDetails) :
    StorageM (List SendWithResult × List ReviewActionResult) := do
  let results ← swr.mapM (aggregateActionResult sharing details)
  return (results.map Prod.fst, results.map Prod.snd)

structure ShareResult where
  swr : List SendWithResult
  ndr : Option (List ReviewActionResult) := none

def postReadyReqs (batch : Option String) (swr : List SendWithResult) (reqs : List TableProvenTxReq) : StorageM ShareResult := do
  let reqs ← assignBatch batch reqs
  let details ← attemptToPostReqsToNetwork now sharing.toPosting false reqs
  let (swr, rar) ← aggregateActionResults sharing swr details
  return ⟨swr, some rar⟩

def shareReqs (batch : Option String) (isDelayed : Bool) (r : GetReqsAndBeefResult sharing.Beef) : StorageM ShareResult := do
  let swr := classifyReqDetails r.details
  let reqs := readyToSendReqs r.details
  verifyMergedBeef sharing r.beef reqs
  if reqs = [] then return ⟨swr, none⟩
  else if isDelayed then
    StorageRocksDb.transaction (delayReqs batch reqs)
    return ⟨swr, none⟩
  else postReadyReqs now sharing batch swr reqs

/-- `r` is given when the requests and their Beef are known already. -/
def shareReqsWithWorld (txids : List String) (isDelayed : Bool) (r : Option (GetReqsAndBeefResult sharing.Beef)) : StorageM ShareResult := do
  let batch := if txids.length > 1 then some sharing.batch else none
  match r with
  | some r => shareReqs now sharing batch isDelayed r
  | none =>
    if txids = [] then return ⟨[], none⟩
    else shareReqs now sharing batch isDelayed (← getReqsAndBeefToShareWithWorld sharing txids)

end
end WalletToolbox

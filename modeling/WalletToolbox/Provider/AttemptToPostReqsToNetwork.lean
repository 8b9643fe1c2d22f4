import WalletToolbox.Provider.StorageProvider

/-! Posting requests to the network. The requests are handed over in memory. What the
network services answer, and what the transaction parser reads, is a parameter: every
await of a service is a point where other callers move, as every storage call is. -/

namespace WalletToolbox
open Async EntityProvenTxReq StorageCall

structure Outpoint where
  txid : String
  vout : Nat
deriving DecidableEq, Repr

structure PostTxResultForTxid where
  txid : String
  success : Bool
  alreadyKnown : Bool := false
  doubleSpend : Bool := false
  serviceError : Bool := false
  competingTxs : Option (List String) := none
  notes : List ReqHistoryNote := []
  data : Option String := none

structure PostBeefResult where
  name : String
  txidResults : List PostTxResultForTxid
  notes : List ReqHistoryNote := []
  success : Bool := false
  error : Option String := none

structure StatusForTxids where
  status : String
  errorCode : String := ""
  result : Option String

structure Posting where
  /-- Merges the beef of a request; looks transactions up and changes nothing. -/
  mergeReqToBeefToShareExternally : TableProvenTxReq → StorageM Unit
  postBeef : List String → Except WalletError (List PostBeefResult)
  getStatusForTxids : String → Nat → Except WalletError StatusForTxids
  inputs : List UInt8 → Except WalletError (List Outpoint)
  sourceScript : Outpoint → Except WalletError (Option String)
  /-- The txids in the history of a script, unless the service fails. -/
  getScriptHashHistory : String → Except WalletError (Option (List String))
  isUtxo : TableOutput → Except WalletError Bool

inductive AggregateStatus where
  | success | doubleSpend | invalidTx | serviceError
deriving DecidableEq, Repr

def AggregateStatus.text : AggregateStatus → String
  | success => "success"
  | doubleSpend => "doubleSpend"
  | invalidTx => "invalidTx"
  | serviceError => "serviceError"

structure AggregatePostBeefTxResult where
  txid : String
  status : AggregateStatus
  successCount : Nat
  doubleSpendCount : Nat
  statusErrorCount : Nat
  serviceErrorCount : Nat
  competingTxs : List String
  providerAttempts : List String

inductive PostReqsToNetworkDetailsStatus where
  | unknown | invalid | posted (status : AggregateStatus)
deriving DecidableEq, Repr

structure PostReqsToNetworkDetails where
  txid : String
  status : PostReqsToNetworkDetailsStatus
  competingTxs : List String := []
deriving DecidableEq, Repr

section
variable (now : Clock) (posting : Posting)

/-- One request as it is validated: what is reported of it, and whether it is to be posted. -/
structure Validated where
  details : Option PostReqsToNetworkDetails
  vreq : Option TableProvenTxReq

def validateReqFailedNote (req : TableProvenTxReq) : ReqHistoryNote where
  what := "validateReqFailed"
  properties := [("noRawTx", .flag false), ("noTxIds", .flag (req.notify = [])), ("noInputBEEF", .flag req.inputBEEF.isNone)]

def validateReqErrorNote (req : TableProvenTxReq) (error : WalletError) : ReqHistoryNote where
  what := "validateReqError"
  properties := [("txid", .text req.txid), ("code", .text error.code), ("message", .text error.message)]

/-- The handler of a request that could not be validated. -/
def validateReqError (req : TableProvenTxReq) (error : WalletError) : StorageM Validated := do
  let noted := addHistoryNote now (validateReqErrorNote req error) false req
  let tried := { noted with attempts := noted.attempts + 1 }
  let givesUp := tried.attempts > 6 || "The txid parameter must be known to storage".isPrefixOf error.message
  let written := if givesUp then setStatus now .invalid tried else tried
  let _ ← updateStorageDynamicProperties written
  return ⟨if givesUp then some { txid := req.txid, status := .invalid } else none, none⟩

def validateReq (req : TableProvenTxReq) : StorageM Validated :=
  if req.notify = [] ∨ req.inputBEEF = none then do
    let noted := addHistoryNote now (validateReqFailedNote req) false req
    let invalid := setStatus now .invalid noted
    match ← (updateStorageDynamicProperties invalid).settle with
    | .ok _ => return ⟨some { txid := req.txid, status := .invalid }, none⟩
    | .error error => validateReqError now invalid error
  else do
    match ← (posting.mergeReqToBeefToShareExternally req).settle with
    | .ok _ => return ⟨some { txid := req.txid, status := .unknown }, some req⟩
    | .error error => validateReqError now req error

def validateReqsAndMergeBeefs : List TableProvenTxReq → StorageM (List PostReqsToNetworkDetails × List TableProvenTxReq)
  | [] => return ([], [])
  | req :: rest => do
    let validated ← validateReq now posting req
    let (details, vreqs) ← validateReqsAndMergeBeefs rest
    return (validated.details.toList ++ details, validated.vreq.toList ++ vreqs)

def notesOfTxid (pbrs : List PostBeefResult) (txid : String) : List ReqHistoryNote :=
  pbrs.flatMap fun pbr => pbr.notes ++ ((pbr.txidResults.find? (·.txid = txid)).map PostTxResultForTxid.notes).getD []

def replaceReq (req : TableProvenTxReq) : List TableProvenTxReq → List TableProvenTxReq
  | [] => []
  | first :: rest => if first.txid = req.txid then req :: rest else first :: replaceReq req rest

def transferNotesToReqHistories (pbrs : List PostBeefResult) : List String → List TableProvenTxReq → StorageM (List TableProvenTxReq)
  | [], vreqs => return vreqs
  | txid :: rest, vreqs => do
    match vreqs.find? (·.txid = txid) with
    | none => throw (.internal "An internal error has occurred.")
    | some vreq =>
      let noted := addHistoryNotes now (notesOfTxid pbrs txid) vreq
      let _ ← updateStorageDynamicProperties noted
      transferNotesToReqHistories pbrs rest (replaceReq noted vreqs)

def isUnreserved (byte : UInt8) : Bool :=
  let c := Char.ofNat byte.toNat
  byte < 128 && (c.isAlphanum || byte = 39 || c ∈ ['-', '_', '.', '!', '~', '*', '(', ')'])

def hexDigit (digit : Nat) : Char := (if digit < 10 then Char.ofNat (48 + digit) else Char.ofNat (55 + digit))

def encodeURIComponent (value : String) : String :=
  String.ofList (value.toUTF8.toList.flatMap fun byte =>
    if isUnreserved byte then [Char.ofNat byte.toNat] else ['%', hexDigit (byte.toNat / 16), hexDigit (byte.toNat % 16)])

def classifyProviderAttempt (result : PostTxResultForTxid) : String :=
  if result.success then if result.alreadyKnown then "alreadyKnown" else "accepted"
  else if result.doubleSpend then "doubleSpend"
  else if result.serviceError then "serviceError"
  else "rejected"

def formatProviderAttemptForHistory (providerName : String) (result : PostTxResultForTxid) : String :=
  encodeURIComponent providerName ++ "=" ++ (if result.success then "success" else "error") ++ "/" ++ classifyProviderAttempt result

def tallyTxidResult (aggregate : AggregatePostBeefTxResult) (pbr : PostBeefResult) : AggregatePostBeefTxResult :=
  match pbr.txidResults.find? (·.txid = aggregate.txid) with
  | none => aggregate
  | some result =>
    let aggregate := { aggregate with providerAttempts := aggregate.providerAttempts ++ [formatProviderAttemptForHistory pbr.name result] }
    if result.success then { aggregate with successCount := aggregate.successCount + 1 }
    else if result.doubleSpend then
      { aggregate with
        doubleSpendCount := aggregate.doubleSpendCount + 1
        competingTxs := result.competingTxs.getD aggregate.competingTxs }
    else if result.serviceError then { aggregate with serviceErrorCount := aggregate.serviceErrorCount + 1 }
    else { aggregate with statusErrorCount := aggregate.statusErrorCount + 1 }

def tallyTxidResults (txid : String) (pbrs : List PostBeefResult) : AggregatePostBeefTxResult :=
  let tallied := pbrs.foldl tallyTxidResult ⟨txid, .success, 0, 0, 0, 0, [], []⟩
  { tallied with competingTxs := tallied.competingTxs.eraseDups }

def aggregateStatus (aggregate : AggregatePostBeefTxResult) : AggregateStatus :=
  if aggregate.successCount > 0 ∧ aggregate.doubleSpendCount = 0 then .success
  else if aggregate.doubleSpendCount > 0 then .doubleSpend
  else if aggregate.statusErrorCount > 0 then .invalidTx
  else .serviceError

def aggregatePostBeefResult (pbrs : List PostBeefResult) (txid : String) : AggregatePostBeefTxResult :=
  let aggregate := tallyTxidResults txid pbrs
  { aggregate with status := aggregateStatus aggregate }

/-- The retries of `confirmDoubleSpend`: whether the network knows the transaction. -/
def queryStatus (txid : String) : Nat → List Nat → Except WalletError (Bool × List (String × NoteValue))
  | _, [] => return (false, [])
  | _, retry :: rest => do
    let answer ← posting.getStatusForTxids txid retry
    let property := ("getStatus" ++ toString retry,
      NoteValue.text (answer.status ++ answer.errorCode ++ "," ++ answer.result.getD "undefined"))
    if answer.status = "success" then
      match answer.result with
      | none => .error (.error "Cannot read properties of undefined (reading 'status')")
      | some status =>
        if status = "unknown" then
          let (known, properties) ← queryStatus txid retry rest
          return (known, property :: properties)
        else return (true, [property])
    else
      let (known, properties) ← queryStatus txid retry rest
      return (known, property :: properties)

def competitorsOfInputs (txid : String) : List Outpoint → Except WalletError (List String × List String)
  | [] => return ([], [])
  | input :: rest => do
    match ← posting.sourceScript input with
    | none =>
      let (missing, competing) ← competitorsOfInputs txid rest
      return (input.txid :: missing, competing)
    | some script =>
      let history ← posting.getScriptHashHistory script
      let here := (history.getD []).filter fun other => other ≠ input.txid ∧ other ≠ txid
      let (missing, competing) ← competitorsOfInputs txid rest
      return (missing, here ++ competing)

def gatherCompetingTxids (aggregate : AggregatePostBeefTxResult) (rawTx : List UInt8) :
    Except WalletError (List String × List (String × NoteValue)) := do
  let inputs ← posting.inputs rawTx
  let (missing, found) ← competitorsOfInputs posting aggregate.txid inputs
  let all := (aggregate.competingTxs ++ found).eraseDups
  let competing := all.drop (all.length - 24)
  let missingSourceTx := String.join (missing.map (· ++ " "))
  return (competing, (if missing = [] then [] else [("missingSourceTx", .text missingSourceTx)]) ++
    [("competingTxs", .text (",".intercalate competing))])

/-- A double spend the network knows of is a success; otherwise its competitors are looked up. -/
def confirmDoubleSpend (aggregate : AggregatePostBeefTxResult) (req : TableProvenTxReq) :
    Except WalletError (AggregatePostBeefTxResult × TableProvenTxReq) := do
  let (known, properties) ← queryStatus posting req.txid 0 [0, 1, 2]
  if known then
    let note := { what := "confirmDoubleSpend", properties := properties ++ [("newStatus", .text AggregateStatus.success.text)] }
    return ({ aggregate with status := .success }, addHistoryNote now note false req)
  else
    let (competingTxs, more) ← gatherCompetingTxids posting aggregate req.rawTx
    let note := { what := "confirmDoubleSpend", properties := properties ++ more }
    return ({ aggregate with competingTxs }, addHistoryNote now note false req)

def AggregateStatus.reqStatus : AggregateStatus → ProvenTxReqStatus
  | success => .unmined
  | doubleSpend => .doubleSpend
  | invalidTx => .invalid
  | serviceError => .sending

def AggregateStatus.txStatus : AggregateStatus → TransactionStatus
  | success => .unproven
  | doubleSpend | invalidTx => .failed
  | serviceError => .sending

def applyAggregate (status : AggregateStatus) (req : TableProvenTxReq) : TableProvenTxReq :=
  match status with
  | .success => { req with wasBroadcast := true }
  | .serviceError => { req with attempts := req.attempts + 1 }
  | .doubleSpend | .invalidTx => req

def aggregateResultsNote (read : TableProvenTxReq) (before after : AggregatePostBeefTxResult) (attempts : Nat) : ReqHistoryNote where
  what := "aggregateResults"
  properties := [("reqStatus", .text read.status.text), ("aggStatus", .text before.status.text), ("attempts", .number read.attempts),
    ("successCount", .number before.successCount), ("doubleSpendCount", .number before.doubleSpendCount),
    ("statusErrorCount", .number before.statusErrorCount), ("serviceErrorCount", .number before.serviceErrorCount),
    ("providerCount", .number before.providerAttempts.length), ("providerAttempts", .text (";".intercalate before.providerAttempts)),
    ("newReqStatus", .text after.status.reqStatus.text), ("newTxStatus", .text after.status.txStatus.text), ("newAttempts", .number attempts)]

def validReqStatuses : List ProvenTxReqStatus := [.unsent, .unmined, .unconfirmed, .sending, .nosend, .completed]

def getRawTxOfKnownValidTransaction (txid : String) (offset length : Nat) : StorageM (Option (List UInt8)) := do
  match ← verifyOneOrNone (← (find .provenTxs { txid }).await) with
  | some proven => return some ((proven.rawTx.drop offset).take length)
  | none =>
    match ← verifyOneOrNone (← (find .provenTxReqs { txid }).await) with
    | some req => return if req.status ∈ validReqStatuses then some ((req.rawTx.drop offset).take length) else none
    | none => return none

def loadLockingScript (output : TableOutput) : StorageM TableOutput := do
  match output.scriptLength, output.scriptOffset, output.txid with
  | some (length + 1), some (offset + 1), some txid =>
    if txid = "" ∨ output.lockingScript.map List.length = some (length + 1) then return output
    else return { output with lockingScript := (← getRawTxOfKnownValidTransaction txid (offset + 1) (length + 1)).or output.lockingScript }
  | _, _, _ => return output

inductive InputCheck where
  | skipped
  | serviceError
  | stillUtxo
  | stale (outputId : Nat) (outpoint : Outpoint)

def findOutputByOutpoint (userId : Nat) (outpoint : Outpoint) : StorageM (Option TableOutput) := do
  verifyOneOrNone (← (find .outputs { wanted := { userId, txid := outpoint.txid, vout := outpoint.vout } }).await)

def findOutputsByOutpoints (userId : Nat) : List Outpoint → StorageM (List (Outpoint × Option TableOutput))
  | [] => return []
  | outpoint :: rest => do
    let output ← findOutputByOutpoint userId outpoint
    let outputs ← findOutputsByOutpoints userId rest
    return (outpoint, output) :: outputs

/-- What the services say of one input. A script that is not known keeps it from being asked. -/
def checkInput (outpoint : Outpoint) : Option TableOutput → StorageM InputCheck
  | none => return .skipped
  | some output => do
    match ← (if output.lockingScript.isNone then loadLockingScript output else pure output).settle with
    | .error _ => return .skipped
    | .ok loaded =>
      match posting.isUtxo loaded with
      | .error _ => return .serviceError
      | .ok true => return .stillUtxo
      | .ok false => return .stale output.outputId outpoint

def checkInputs : List (Outpoint × Option TableOutput) → StorageM (List InputCheck)
  | [] => return []
  | (outpoint, output) :: rest => do
    let check ← checkInput posting outpoint output
    let checks ← checkInputs rest
    return check :: checks

structure StaleInputs where
  checked : Nat
  staleOutpoints : List Outpoint

/-- The serial part: inputs that are spent on chain are not spendable. -/
def evictInputs : List InputCheck → StorageM StaleInputs
  | [] => return ⟨0, []⟩
  | check :: rest => do
    match check with
    | .skipped => evictInputs rest
    | .serviceError | .stillUtxo =>
      let stale ← evictInputs rest
      return { stale with checked := stale.checked + 1 }
    | .stale outputId outpoint =>
      let _ ← (update .outputs outputId { spendable := some false }).await
      let stale ← evictInputs rest
      return ⟨stale.checked + 1, outpoint :: stale.staleOutpoints⟩

def markStaleInputsAsSpent (req : TableProvenTxReq) : StorageM StaleInputs :=
  match req.notify with
  | [] => return ⟨0, []⟩
  | id :: _ => do
    match ← (find .transactions { wanted := { transactionId := id }, noRawTx := true }).await with
    | [] => return ⟨0, []⟩
    | tx :: _ => do
      let inputs ← .ofExcept (posting.inputs req.rawTx)
      let outpoints := inputs.filter fun outpoint => outpoint.txid ≠ ""
      if outpoints = [] then return ⟨0, []⟩
      else evictInputs (← checkInputs posting (← findOutputsByOutpoints tx.userId outpoints))

def staleInputsNote (status : AggregateStatus) (stale : StaleInputs) : ReqHistoryNote where
  what := "markStaleInputsAsSpent"
  properties := [("aggStatus", .text status.text), ("checked", .number stale.checked), ("confirmed", .number stale.staleOutpoints.length)] ++
    if stale.staleOutpoints = [] then []
    else [("outpoints", .text (",".intercalate (stale.staleOutpoints.map fun outpoint => outpoint.txid ++ "." ++ toString outpoint.vout)))]

def noteStaleInputs (status : AggregateStatus) (req : TableProvenTxReq) : StorageM Unit := do
  let stale ← markStaleInputsAsSpent posting req
  if stale.checked > 0 then
    let noted := addHistoryNote now (staleInputsNote status stale) false req
    let _ ← updateStorageDynamicProperties noted
  else return

/-- One txid of `updateReqsFromAggregateResults`; nothing is reported of a request that is
already past its broadcast. `nested` says that the call runs in a transaction. -/
def updateReqFromAggregateResult (nested : Bool) (aggregate : AggregatePostBeefTxResult) (vreq : TableProvenTxReq) :
    StorageM (Option AggregatePostBeefTxResult) := do
  let read ← refreshFromStorage vreq
  if read.status ∈ [.completed, .unmined] then return none
  else
    let (confirmed, req) ← .ofExcept
      (if aggregate.status = .doubleSpend ∧ nested = false then confirmDoubleSpend now posting aggregate read else .ok (aggregate, read))
    let applied := applyAggregate confirmed.status req
    let note := aggregateResultsNote read aggregate confirmed applied.attempts
    let noted := addHistoryNote now note false (setStatus now confirmed.status.reqStatus applied)
    let _ ← updateStorageDynamicProperties noted
    StorageRocksDb.transaction (StorageProvider.updateTransactionsStatus noted.notify confirmed.status.txStatus)
    if confirmed.status.txStatus = .failed ∧ nested = false then noteStaleInputs now posting confirmed.status noted
    return some confirmed

def reportResult (aggregate : AggregatePostBeefTxResult) : List PostReqsToNetworkDetails → List PostReqsToNetworkDetails
  | [] => []
  | first :: rest =>
    if first.txid = aggregate.txid then { first with status := .posted aggregate.status, competingTxs := aggregate.competingTxs } :: rest
    else first :: reportResult aggregate rest

def updateReqsFromAggregateResults (nested : Bool) (pbrs : List PostBeefResult) (vreqs : List TableProvenTxReq) :
    List String → List PostReqsToNetworkDetails → StorageM (List PostReqsToNetworkDetails)
  | [], details => return details
  | txid :: rest, details => do
    match vreqs.find? (·.txid = txid) with
    | none => throw (.internal "An internal error has occurred.")
    | some vreq =>
      match ← updateReqFromAggregateResult now posting nested (aggregatePostBeefResult pbrs txid) vreq with
      | none => updateReqsFromAggregateResults nested pbrs vreqs rest details
      | some aggregate => updateReqsFromAggregateResults nested pbrs vreqs rest (reportResult aggregate details)

def attemptToPostReqsToNetwork (nested : Bool) (reqs : List TableProvenTxReq) : StorageM (List PostReqsToNetworkDetails) := do
  let (details, vreqs) ← validateReqsAndMergeBeefs now posting reqs
  let txids := vreqs.map TableProvenTxReq.txid
  let pbrs ← .ofExcept (posting.postBeef txids)
  let noted ← transferNotesToReqHistories now pbrs txids vreqs
  updateReqsFromAggregateResults now posting nested pbrs noted txids details

end
end WalletToolbox

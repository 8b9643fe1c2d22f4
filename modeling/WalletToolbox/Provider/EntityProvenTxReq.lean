import WalletToolbox.Provider.StorageCalls

/-! A request as the methods hold it in memory. The entity is the row with its lists
parsed; every change of the lists happens here, and an update writes them back whole. -/

namespace WalletToolbox
open Async StorageCall

def truthyId (id : Option Nat) : Option Nat := id.filter (· ≠ 0)
def truthyText (text : Option String) : Option String := text.filter (· ≠ "")

/-- The time a note without one is stamped with: each note is stamped once. -/
abbrev Clock := ReqHistoryNote → String

namespace ReqHistoryNote

def stamped (now : Clock) (note : ReqHistoryNote) : ReqHistoryNote :=
  { note with when := some ((truthyText note.when).getD (now note)) }

def coveredBy (existing note : ReqHistoryNote) : Bool :=
  (existing.when.isNone || existing.when = note.when) && existing.what = note.what &&
    existing.properties.all fun property => note.properties.lookup property.1 = some property.2

def sortKey (note : ReqHistoryNote) : String := note.when.getD "undefined" ++ " " ++ note.what

end ReqHistoryNote

namespace EntityProvenTxReq

def wasBroadcastStatuses : List ProvenTxReqStatus := [.unmined, .callback, .unconfirmed, .completed]

def ofApi (api : TableProvenTxReq) : TableProvenTxReq := { api with notify := api.notify.eraseDups }

def addNotifyTransactionId (id : Nat) (req : TableProvenTxReq) : TableProvenTxReq :=
  { req with notify := (req.notify ++ [id]).eraseDups.insertionSort (· ≤ ·), notified := false }

def withoutOlder (note : ReqHistoryNote) (notes : List ReqHistoryNote) : List ReqHistoryNote :=
  notes.filter fun existing => existing.what ≠ note.what || (truthyText existing.when).any (note.when.getD "" < ·)

section
variable (now : Clock)

def addHistoryNote (note : ReqHistoryNote) (noDupes : Bool) (req : TableProvenTxReq) : TableProvenTxReq :=
  let note := note.stamped now
  let notes := if noDupes then withoutOlder note req.history else req.history
  if notes.any fun existing => existing.coveredBy note then { req with history := notes }
  else { req with history := (notes ++ [note]).insertionSort fun first second => first.sortKey ≤ second.sortKey }

def addHistoryNotes (notes : List ReqHistoryNote) (req : TableProvenTxReq) : TableProvenTxReq :=
  notes.foldl (fun req note => addHistoryNote now note false req) req

def statusNote (was status : ProvenTxReqStatus) : ReqHistoryNote where
  what := "status"
  properties := [("status_was", .text was.text), ("status_now", .text status.text)]

def setStatus (status : ProvenTxReqStatus) (req : TableProvenTxReq) : TableProvenTxReq :=
  let noted := if status ≠ req.status then addHistoryNote now (statusNote req.status status) false req else req
  { noted with status, wasBroadcast := req.wasBroadcast || wasBroadcastStatuses.contains status }

def mergeNotifyTransactionIds (ei req : TableProvenTxReq) : TableProvenTxReq :=
  ((ofApi ei).notify.filter (· ≠ 0)).foldl (fun req id => addNotifyTransactionId id req) req

def mergeHistory (ei req : TableProvenTxReq) : TableProvenTxReq := addHistoryNotes now (ofApi ei).history req

end

def saysBroadcast (note : ReqHistoryNote) : Bool :=
  note.what = "status" &&
    wasBroadcastStatuses.any fun status => note.properties.lookup "status_now" = some (.text status.text)

def wasBroadcast (req : TableProvenTxReq) : Bool :=
  req.wasBroadcast || wasBroadcastStatuses.contains req.status || req.history.any saysBroadcast

def dynamics (req : TableProvenTxReq) : ProvenTxReqUpdate where
  provenTxId := (truthyId req.provenTxId).map some
  status := req.status
  attempts := req.attempts
  notified := req.notified
  batch := (truthyText req.batch).map some
  history := req.history
  notify := req.notify
  wasBroadcast := some (wasBroadcast req)
  rebroadcastAttempts := req.rebroadcastAttempts

def updateStorageDynamicProperties (req : TableProvenTxReq) : StorageM Nat :=
  (update .provenTxReqs req.provenTxReqId (dynamics req)).await

/-- `{ ...this.api }`: columns a stored row lacks are not among its properties. -/
def wholeRow (req : TableProvenTxReq) : ProvenTxReqUpdate where
  provenTxReqId := req.provenTxReqId
  provenTxId := req.provenTxId.map some
  status := req.status
  attempts := req.attempts
  notified := req.notified
  txid := req.txid
  batch := req.batch.map some
  history := req.history
  notify := req.notify
  rawTx := req.rawTx
  inputBEEF := req.inputBEEF.map some
  wasBroadcast := req.wasBroadcast
  rebroadcastAttempts := req.rebroadcastAttempts

/-- A request without an id is inserted first. -/
def updateStorage (req : TableProvenTxReq) : StorageM TableProvenTxReq := do
  let req ← if req.provenTxReqId = 0 then (insert .provenTxReqs req).await else pure req
  let _ ← (update .provenTxReqs req.provenTxReqId (wholeRow req)).await
  return req

def fromStorageTxid (txid : String) : StorageM (Option TableProvenTxReq) := do
  let reqs ← (find .provenTxReqs { txid }).await
  return (← verifyOneOrNone reqs).map ofApi

def fromStorageId (id : Nat) : StorageM TableProvenTxReq := do
  let reqs ← (find .provenTxReqs { provenTxReqId := id }).await
  match ← verifyOneOrNone reqs with
  | none => throw (.internal ("proven_tx_reqs with id " ++ toString id ++ " is missing."))
  | some api => return ofApi api

def refreshFromStorage (req : TableProvenTxReq) : StorageM TableProvenTxReq := do
  let reqs ← (find .provenTxReqs { provenTxReqId := req.provenTxReqId }).await
  return ofApi (← verifyOne reqs)

end EntityProvenTxReq
end WalletToolbox

import WalletToolbox.Proving.MerklePaths

/-! The ways by which proofs get into storage: the check for proofs of requests, the
proofs fetched from Arcade, and the proofs that replace those of deactivated headers. -/

namespace WalletToolbox
open Async Chaintracks EntityProvenTxReq

structure ProofOptions where
  now : Clock
  ageInMinutes : TableProvenTxReq → Int
  maxAcceptableHeight : Nat
  countsAsAttempt : Bool
  ignoreStatus : Bool
  unprovenAttemptsLimit : Nat
  maxRebroadcastAttempts : Nat

section
variable (sdk : MerklePaths) (options : ProofOptions)

namespace EntityProvenTxReq

def applyProofTimeout (now : Clock) (maxRebroadcastAttempts : Nat) (req : TableProvenTxReq) : TableProvenTxReq :=
  let req := { req with notified := false }
  if wasBroadcast req = false then setStatus now .invalid req
  else if 0 < maxRebroadcastAttempts ∧ maxRebroadcastAttempts ≤ req.rebroadcastAttempts then setStatus now .invalid req
  else { setStatus now .unsent { req with rebroadcastAttempts := req.rebroadcastAttempts + 1 } with attempts := 0 }

end EntityProvenTxReq

namespace EntityProvenTx

def getProofAttemptsLimit : Nat := 8

def getProofMinutes : Int := 60

def giveUpNote (req : TableProvenTxReq) (ageInMinutes : Int) : ReqHistoryNote where
  what := "getMerklePathGiveUp"
  properties := [("attempts", .number req.attempts), ("limit", .number getProofAttemptsLimit), ("ageInMinutes", .number ageInMinutes)]

/-- A request without a proof is given up when it has been tried often and for long. -/
def giveUp (req : TableProvenTxReq) : TableProvenTxReq :=
  let ageInMinutes := options.ageInMinutes req
  if getProofAttemptsLimit < req.attempts ∧ getProofMinutes < ageInMinutes then
    EntityProvenTxReq.applyProofTimeout options.now options.maxRebroadcastAttempts
      (addHistoryNote options.now (giveUpNote req ageInMinutes) true req)
  else req

def provenErrorNote (req : TableProvenTxReq) (error : WalletError) : ReqHistoryNote where
  what := "getMerklePathProvenError"
  properties := [("attempts", .number req.attempts), ("code", .text error.code), ("description", .text error.message)]

def noteProvenError (error : WalletError) (req : TableProvenTxReq) : TableProvenTxReq :=
  addHistoryNote options.now (provenErrorNote req error) true req

/-- The row for a proof: the height and the leaf are those of the path, the block and its
root those of the header that came with it. -/
def newProven (req : TableProvenTxReq) (path : MerklePath) (leaf : MerklePathLeaf) (header : BlockHeader) : TableProvenTx where
  provenTxId := 0
  txid := req.txid
  height := path.blockHeight
  index := leaf.offset
  merklePath := sdk.toBinary path
  rawTx := req.rawTx
  blockHash := header.hash
  merkleRoot := header.merkleRoot

/-- One path; what goes wrong with it is noted. -/
def fromPath (req : TableProvenTxReq) (path : MerklePath) (header : Option BlockHeader) : Option TableProvenTx × TableProvenTxReq :=
  match path.leafOf req.txid, header with
  | .error error, _ => (none, noteProvenError options error req)
  | .ok none, _ => (none, noteProvenError options (.internal "merkle path does not contain leaf for txid")
      (addHistoryNote options.now { what := "getMerklePathTxidNotFound" } true req))
  | .ok (some _), none => (none, noteProvenError options (.error "Cannot read properties of undefined (reading 'merkleRoot')") req)
  | .ok (some leaf), some header => (some (newProven sdk req path leaf header), req)

def noteResult (notes : List ReqHistoryNote) (req : TableProvenTxReq) : TableProvenTxReq :=
  notes.foldl (fun req note => addHistoryNote options.now note true req) req

def countAttempt (countsAsAttempt : Bool) (req : TableProvenTxReq) : TableProvenTxReq :=
  if countsAsAttempt then { req with attempts := req.attempts + 1 } else req

def fromReq (req : TableProvenTxReq) (gmpResult : GetMerklePathResult) (countsAsAttempt : Bool) :
    Except WalletError (Option TableProvenTx × TableProvenTxReq) :=
  if req.txid = "" then .error (.missingParameter "req.txid")
  else
    match gmpResult.merklePath with
    | none =>
      if truthyText gmpResult.name = none ∧ gmpResult.error = none then .ok (none, noteResult options gmpResult.notes req)
      else .ok (none, giveUp options (noteResult options gmpResult.notes req))
    | some path =>
      .ok (fromPath sdk options (countAttempt countsAsAttempt (noteResult options gmpResult.notes req)) path gmpResult.header)

end EntityProvenTx

namespace TaskCheckForProofs
open ProofM

inductive Verdict where
  | proven (req : TableProvenTxReq)
  | invalid (req : TableProvenTxReq)
  | neither

def readyStatuses : List ProvenTxReqStatus := [.callback, .unmined, .unknown, .unconfirmed, .nosend, .sending]

def attemptStatuses : List ProvenTxReqStatus := [.callback, .unmined, .unknown, .unconfirmed, .sending]

def storeProof (req : TableProvenTxReq) (proven : TableProvenTx) : ProofM TableProvenTxReq := do
  let _ ← onStorage (updateStorageDynamicProperties req)
  let read ← onStorage (refreshFromStorage req)
  let r ← onStorage (StorageProvider.updateProvenTxReqWithNewProvenTx options.now {
    provenTxReqId := read.provenTxReqId
    txid := read.txid
    height := proven.height
    index := proven.index
    blockHash := proven.blockHash
    merkleRoot := proven.merkleRoot
    merklePath := proven.merklePath })
  return { EntityProvenTxReq.setStatus options.now r.status read with
    history := r.history, provenTxId := some r.provenTxId, notified := true }

def settleProof (req : TableProvenTxReq) : Option TableProvenTx → ProofM TableProvenTxReq
  | some proven => storeProof options req proven
  | none => return if options.countsAsAttempt ∧ req.status ∈ attemptStatuses then { req with attempts := req.attempts + 1 } else req

def verdictOf (req : TableProvenTxReq) : Verdict :=
  match req.status with
  | .completed => .proven req
  | .invalid => .invalid req
  | _ => .neither

/-- A request whose proof is asked for; proofs from very new blocks are ignored. -/
def requestProof (req : TableProvenTxReq) : ProofM Verdict := do
  let result ← getMerklePath req.txid
  if result.header.any (options.maxAcceptableHeight < ·.height) then return .neither
  else
    let (proven, tried) ← .ofExcept
      (EntityProvenTx.fromReq sdk options req result (options.countsAsAttempt && req.status ≠ .nosend))
    let settled ← settleProof options tried proven
    let _ ← onStorage (updateStorageDynamicProperties settled)
    let read ← onStorage (refreshFromStorage settled)
    return verdictOf read

def finish (req reqApi : TableProvenTxReq) (verdict : TableProvenTxReq → Verdict) : ProofM Verdict := do
  let _ ← onStorage (updateStorageDynamicProperties req)
  return verdict reqApi

def timeoutVerdict (req reqApi : TableProvenTxReq) : Verdict := if req.status = .unsent then .neither else .invalid reqApi

def getProof (reqApi : TableProvenTxReq) : ProofM Verdict :=
  let req := ofApi reqApi
  if options.ignoreStatus = false ∧ reqApi.status ∉ readyStatuses then return .neither
  else if req.provenTxId ≠ none then
    finish (EntityProvenTxReq.setStatus options.now .completed { req with notified := false }) reqApi .proven
  else if sdk.txidOf req.rawTx ≠ req.txid then
    finish (EntityProvenTxReq.setStatus options.now .invalid { req with notified := false }) reqApi .invalid
  else if options.ignoreStatus = false ∧ options.unprovenAttemptsLimit < req.attempts then
    let timeout := EntityProvenTxReq.applyProofTimeout options.now options.maxRebroadcastAttempts req
    finish timeout reqApi (timeoutVerdict timeout)
  else requestProof sdk options req

def getProofs : List TableProvenTxReq → ProofM (List Verdict)
  | [] => return []
  | reqApi :: rest => do
    let verdict ← getProof sdk options reqApi
    return verdict :: (← getProofs rest)

def checkProofs (select : List TableProvenTxReq → List TableProvenTxReq) : ProofM (List Verdict) := do
  let reqs ← onStorage (StorageCall.find .provenTxReqs {}).await
  getProofs sdk options (select reqs)

end TaskCheckForProofs

namespace TaskArcadeSSE
open ProofM

structure ArcadeProof where
  index : Nat
  height : Nat
  blockHash : String
  merkleRoot : String
  merklePath : List UInt8

/-- The proof of an answer, unless it lacks the path or the path lacks the transaction. -/
def arcadeProof (txid : String) (data : ArcadeTx) : Except WalletError (Option ArcadeProof) :=
  match truthyText data.merklePath with
  | none => .ok none
  | some text => do
    let path ← sdk.fromHex text
    let merkleRoot ← sdk.computeRoot path txid
    match ← path.leafOf txid with
    | none => return none
    | some leaf => return some {
        index := leaf.offset
        height := (truthyId data.blockHeight).getD path.blockHeight
        blockHash := data.blockHash.getD ""
        merkleRoot
        merklePath := sdk.toBinary path }

def readArcadeProof (txid : String) : ProofM (Option ArcadeProof) :=
  .await (.getArcadeTx txid) fun reply => do
    match ← .ofExcept reply with
    | none => return none
    | some data => .ofExcept (arcadeProof sdk txid data)

def errorNote (error : WalletError) : ReqHistoryNote where
  what := "arcProofError"
  properties := [("error", .text error.message)]

def noteError (req : TableProvenTxReq) (error : WalletError) : ProofM Unit := do
  let _ ← onStorage (updateStorageDynamicProperties (addHistoryNote options.now (errorNote error) false req))

def storeArcadeProof (txid : String) (proof : ArcadeProof) (read : TableProvenTxReq) : ProofM Unit := do
  let stored ← (onStorage (StorageProvider.updateProvenTxReqWithNewProvenTx options.now {
    provenTxReqId := read.provenTxReqId
    txid
    height := proof.height
    index := proof.index
    blockHash := proof.blockHash
    merkleRoot := proof.merkleRoot
    merklePath := proof.merklePath })).settle
  match stored with
  | .ok _ => return
  | .error error => noteError options read error

/-- Nothing asks the chain for the root. -/
def fetchProofFromArcade (req : TableProvenTxReq) : ProofM Unit := do
  let proof ← (readArcadeProof sdk req.txid).settle
  match proof with
  | .error error => noteError options req error
  | .ok none => return
  | .ok (some proof) =>
    let read ← (onStorage (refreshFromStorage req)).settle
    match read with
    | .error error => noteError options req error
    | .ok read => storeArcadeProof options req.txid proof read

end TaskArcadeSSE

namespace WalletStorageManager
open ProofM

structure ProofUpdate where
  height : Nat
  index : Nat
  merklePath : List UInt8
  merkleRoot : String
  blockHash : String

/-- `{ ...existing, ...update }` -/
def ProofUpdate.spread (update : ProofUpdate) (existing : TableProvenTx) : TableProvenTx :=
  { existing with
    height := update.height
    index := update.index
    merklePath := update.merklePath
    merkleRoot := update.merkleRoot
    blockHash := update.blockHash }

inductive Reproven where
  | updated (update : ProofUpdate)
  | unchanged
  | unavailable

/-- The computed root is confirmed; what is stored is that of the header. -/
def evaluateNewMerkleLeaf (ptx : TableProvenTx) (mp : MerklePath) (blockHash : String) (update : ProofUpdate) : ProofM Reproven :=
  if blockHash = ptx.blockHash then return .unchanged
  else do
    let merkleRoot ← .ofExcept (sdk.computeRoot mp ptx.txid)
    let isValid ← isValidRootForHeight merkleRoot update.height 3
    return if isValid then .updated update else .unavailable

def newProofUpdate (mp : MerklePath) (leaf : MerklePathLeaf) (h : BlockHeader) : ProofUpdate where
  height := mp.blockHeight
  index := leaf.offset
  merklePath := sdk.toBinary mp
  merkleRoot := h.merkleRoot
  blockHash := h.hash

def evaluateProof (ptx : TableProvenTx) (mpr : GetMerklePathResult) : ProofM Reproven :=
  match mpr.merklePath, mpr.header with
  | some mp, some h => do
    match ← .ofExcept (mp.leafOf ptx.txid) with
    | some leaf => evaluateNewMerkleLeaf sdk ptx mp h.hash (newProofUpdate sdk mp leaf h)
    | none => return .unavailable
  | _, _ => return .unavailable

def reproveProven (ptx : TableProvenTx) : ProofM Reproven := do
  let mpr ← getMerklePath ptx.txid
  evaluateProof sdk ptx mpr

def reproveEach : List TableProvenTx → ProofM (List (TableProvenTx × ProofUpdate))
  | [] => return []
  | ptx :: rest => do
    let reproven ← reproveProven sdk ptx
    let others ← reproveEach rest
    match reproven with
    | .updated update => return (ptx, update) :: others
    | .unchanged | .unavailable => return others

def updateProvenTx (was : TableProvenTx) (update : ProofUpdate) : ProofM Unit := do
  let _ ← onStorage (StorageCall.update .provenTxs was.provenTxId update.spread).await

def updateEach : List (TableProvenTx × ProofUpdate) → ProofM Unit
  | [] => return
  | (was, update) :: rest => do
    updateProvenTx was update
    updateEach rest

def reproveFound (wanted : ProvenTxPartial) : ProofM Unit := do
  let ptxs ← onStorage (StorageCall.find .provenTxs wanted).await
  let updated ← reproveEach sdk ptxs
  updateEach updated

def reproveHeader (deactivatedHash : String) : ProofM Unit := reproveFound sdk { blockHash := deactivatedHash }

def reproveHeightMerkleRoot (height : Nat) (staleMerkleRoot : String) : ProofM Unit :=
  reproveFound sdk { height, merkleRoot := staleMerkleRoot }

def reproveStored (provenTxId : Nat) : ProofM Unit := reproveFound sdk { provenTxId }

end WalletStorageManager
end
end WalletToolbox

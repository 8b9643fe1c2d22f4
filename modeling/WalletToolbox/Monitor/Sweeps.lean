import WalletToolbox.Effects.Sweeps
import WalletToolbox.Proving.MerklePaths

/-! The tasks of the monitor that sweep a table. What becomes of a single row is left to
the services and to storage: its processing throws, or it leaves some row. -/

namespace WalletToolbox
open Effects Sweep EntityProvenTxReq

/-- `limit` -/
def sweepLimit : Nat := 100

section
variable (lastNewHeader lastNewBlockHeight : Option Nat)
  (getProof : (maxAcceptableHeight : Nat) → TableProvenTxReq → Except WalletError TableProvenTxReq)

namespace TaskCheckForProofs

def statuses : List ProvenTxReqStatus := [.callback, .unmined, .sending, .unknown, .unconfirmed]

def selects (req : TableProvenTxReq) : Bool := req.status ∈ statuses

def maxAcceptableHeight : Option Nat := lastNewHeader.or lastNewBlockHeight

def runTask : Fallible WalletError (Swept TableProvenTxReq) Unit :=
  match maxAcceptableHeight lastNewHeader lastNewBlockHeight with
  | none => return
  | some height => sweep sweepLimit selects all (getProof height)

end TaskCheckForProofs

namespace TaskCheckNoSends

def selects (req : TableProvenTxReq) : Bool := req.status = .nosend

def runTask : Fallible WalletError (Swept TableProvenTxReq) Unit :=
  match lastNewHeader with
  | none => return
  | some height => sweep sweepLimit selects all (getProof height)

end TaskCheckNoSends
end

namespace TaskUnFail

/-- What the monitor gives the task: the services, what `unfailReq` does to the transactions of
a request and to their outputs, and the write of the request, any of which may throw. -/
structure UnFailCalls where
  now : Clock
  getMerklePath : String → Except WalletError GetMerklePathResult
  unfailReq : TableProvenTxReq → Except WalletError Unit
  updateStorageDynamicProperties : TableProvenTxReq → Except WalletError Unit

variable (calls : UnFailCalls)

def selects (req : TableProvenTxReq) : Bool := req.status = .unfail

/-- The request by the answer about its proof. -/
def settle (req : TableProvenTxReq) : Option MerklePath → Except WalletError TableProvenTxReq
  | some _ => do
    let unmined := { setStatus calls.now .unmined req with attempts := 0 }
    calls.unfailReq unmined
    return unmined
  | none => return setStatus calls.now .invalid req

/-- `unfail` for one request. -/
def unfail (reqApi : TableProvenTxReq) : Except WalletError TableProvenTxReq := do
  let req := ofApi reqApi
  let r ← calls.getMerklePath req.txid
  let settled ← settle calls req r.merklePath
  calls.updateStorageDynamicProperties settled
  return (dynamics settled).spread reqApi

def runTask : Fallible WalletError (Swept TableProvenTxReq) Unit := sweep sweepLimit selects all (unfail calls)

end TaskUnFail

structure DatedTransaction where
  transaction : TableTransaction
  updatedAt : Option Int

namespace TaskFailAbandoned

/-- The time at the start of each round, the option of the monitor, and the update of a status,
which throws or stamps the row. -/
structure FailAbandonedCalls where
  now : Nat → Int
  abandonedMsecs : Int
  updateTransactionStatus : DatedTransaction → Except WalletError Int

variable (calls : FailAbandonedCalls)

def statuses : List TransactionStatus := [.unprocessed, .unsigned]

def selects (row : DatedTransaction) : Bool := row.transaction.status ∈ statuses

def abandoned (round : Nat) (row : DatedTransaction) : Bool := row.updatedAt.any (· < calls.now round - calls.abandonedMsecs)

def fail (row : DatedTransaction) : Except WalletError DatedTransaction := do
  let updatedAt ← calls.updateTransactionStatus row
  return { transaction := { row.transaction with status := .failed }, updatedAt := some updatedAt }

def runTask : Fallible WalletError (Swept DatedTransaction) Unit := sweep sweepLimit selects (abandoned calls) (fail calls)

end TaskFailAbandoned
end WalletToolbox

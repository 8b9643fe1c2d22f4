import WalletToolbox.Language.Text
import WalletToolbox.Provider.AttemptToPostReqsToNetwork

/-! The messages of the broadcast stream, and what the answers of the providers come to. -/

namespace WalletToolbox
open Text

structure TxBroadcastMessage where
  messageId : String
  idempotencyKey : String
  source : String
  chain : String
  txid : String
  rawTxHash : String
  attempt : Nat
  walletStorageIdentityKey : String
  provenTxReqId : Nat
deriving DecidableEq, Repr

def createTxBroadcastIdempotencyKey (chain walletStorageIdentityKey : String) (provenTxReqId : Nat) (txid : String) (attempt : Nat) : String :=
  chain ++ ":" ++ walletStorageIdentityKey ++ ":broadcast:" ++ toString provenTxReqId ++ ":" ++ txid ++ ":" ++ toString attempt

namespace TxBroadcastMessage

def texts (message : TxBroadcastMessage) : List (String × String) :=
  [("messageId", message.messageId), ("idempotencyKey", message.idempotencyKey), ("source", message.source), ("chain", message.chain),
    ("txid", message.txid), ("rawTxHash", message.rawTxHash), ("walletStorageIdentityKey", message.walletStorageIdentityKey)]

def validate (message : TxBroadcastMessage) : Except WalletError Unit :=
  match message.texts.find? fun text => Text.trim text.2 = "" with
  | some (key, _) => .error (.error ("TxBroadcastMessage." ++ key ++ " is required"))
  | none => .ok ()

def validateRawTxHash (message : TxBroadcastMessage) (hash : String) : Except WalletError Unit :=
  if lowered hash ≠ lowered message.rawTxHash then .error (.error "TxBroadcastMessage.rawTxHash does not match loaded rawTx")
  else .ok ()

end TxBroadcastMessage

inductive BroadcastProviderOutcome where
  | seen | alreadySeen | accepted | rejectedTerminal | rejectedRetryable | rateLimited | timeout | unknown | malformed
deriving DecidableEq, Repr

namespace BroadcastProviderOutcome

def text : BroadcastProviderOutcome → String
  | seen => "seen"
  | alreadySeen => "already_seen"
  | accepted => "accepted"
  | rejectedTerminal => "rejected_terminal"
  | rejectedRetryable => "rejected_retryable"
  | rateLimited => "rate_limited"
  | timeout => "timeout"
  | unknown => "unknown"
  | malformed => "malformed"

def isRetryable : BroadcastProviderOutcome → Bool
  | rejectedRetryable | rateLimited | timeout => true
  | seen | alreadySeen | accepted | rejectedTerminal | unknown | malformed => false

end BroadcastProviderOutcome

/-- `/rate.?limit|429/i` -/
def saysRateLimit (text : String) : Bool :=
  let rate := "rate".toList
  let limit := "limit".toList
  includes text "429" || (lowered text).toList.tails.any fun rest =>
    rate.isPrefixOf rest && (limit.isPrefixOf (rest.drop 4) ||
      ((rest.drop 4).head?.any fun c => c ∉ [Char.ofNat 0xA, Char.ofNat 0xD, Char.ofNat 0x2028, Char.ofNat 0x2029]) && limit.isPrefixOf (rest.drop 5))

def saysTimeout (text : String) : Bool :=
  includes (lowered text) "timeout" || includes (lowered text) "timed out"

inductive ResultClass where
  | settled (outcome : BroadcastProviderOutcome)
  | serviceError
  | statusError

def classifyTxResult (result : PostBeefResult) (txResult : PostTxResultForTxid) : ResultClass :=
  if txResult.success ∧ txResult.alreadyKnown then .settled .alreadySeen
  else if txResult.success then .settled (if result.success then .accepted else .seen)
  else if txResult.doubleSpend then .settled .rejectedTerminal
  else if txResult.serviceError then
    let text := (txResult.data.or result.error).getD "\"\""
    if saysRateLimit text then .settled .rateLimited
    else if saysTimeout text then .settled .timeout
    else .serviceError
  else .statusError

def classifyRest (txid : String) (sawServiceError sawStatusError : Bool) : List PostBeefResult → BroadcastProviderOutcome
  | [] => if sawServiceError then .rejectedRetryable else if sawStatusError then .rejectedTerminal else .unknown
  | result :: rest =>
    match result.txidResults.find? (·.txid = txid) with
    | none => classifyRest txid sawServiceError sawStatusError rest
    | some txResult =>
      match classifyTxResult result txResult with
      | .settled outcome => outcome
      | .serviceError => classifyRest txid true sawStatusError rest
      | .statusError => classifyRest txid sawServiceError true rest

def classifyBroadcastResults (results : List PostBeefResult) (txid : String) : BroadcastProviderOutcome :=
  classifyRest txid false false results

def malformedWords : List String :=
  ["txbroadcastmessage", "rawtxhash", "json", "unexpected", "object", "must not", "required", "malformed"]

def isMalformedBroadcastError (error : WalletError) : Bool :=
  malformedWords.any (includes (lowered error.message))

def summarizePostBeefProviderAttemptsForTxid (txid : String) (pbrs : List PostBeefResult) : List String :=
  pbrs.filterMap fun pbr => (pbr.txidResults.find? (·.txid = txid)).map (formatProviderAttemptForHistory pbr.name)

end WalletToolbox

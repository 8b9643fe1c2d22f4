import WalletToolbox.Effects.Fallible
import WalletToolbox.Permissions.TokenSearch

/-! The tokens that `WalletPermissionsManager` puts on chain and takes off it: the output of
a token, and the batches that spend tokens as far as that works. -/

namespace WalletToolbox
open Effects Fallible

inductive PushdropFields where
  | protocol (domain : String) (expiry : Nat) (privileged : Bool) (protocolID : WalletProtocol) (counterparty : String)
  | basket (domain : String) (expiry : Nat) (basket : String)
  | certificate (domain : String) (expiry : Nat) (privileged : Bool) (certType : String) (fields : List String) (verifier : String)
  | spending (domain : String) (authorizedAmount : Int)
deriving DecidableEq, Repr

def buildPushdropFields (originator : String) (permission : Permission) (expiry : Nat) (amount : Option Nat) : PushdropFields :=
  match permission with
  | .protocol privileged protocolID counterparty =>
    .protocol originator expiry privileged protocolID (if protocolID.level = 2 then counterparty else "")
  | .basket basket => .basket originator expiry basket
  | .certificate privileged verifier certType fields => .certificate originator expiry privileged certType fields verifier
  | .spending satoshis _ => .spending originator ((amount.map Int.ofNat).getD satoshis)

structure PermissionOutput where
  fields : PushdropFields
  basket : String
  tags : List String
deriving DecidableEq, Repr

def tokenOriginator (platform : Platform) (originator : String) : String :=
  orElseText (normalizeOriginator platform (some originator)) originator

def buildPermissionOutput (platform : Platform) (item : TokenItem) : PermissionOutput :=
  let originator := tokenOriginator platform item.request.originator
  { fields := buildPushdropFields originator item.request.permission item.expiry item.amount
    basket := basketOf item.request.permission
    tags := buildTagsForRequest originator item.request.permission }

section
variable {T R σ ε : Type} (runChunk : List T → Fallible ε σ (List R))

/-- A chunk that fails is tried again in halves. -/
def runBestEffortChunk (chunk : List T) (state : σ) : List R × σ :=
  match runChunk chunk state with
  | (.ok results, after) => (results, after)
  | (.error _, after) =>
    if chunk.length ≤ 1 then ([], after)
    else
      let mid := (chunk.length + 1) / 2
      let left := runBestEffortChunk (chunk.take mid) after
      let right := runBestEffortChunk (chunk.drop mid) left.2
      (left.1 ++ right.1, right.2)
termination_by chunk.length
decreasing_by
  · rw [List.length_take]
    omega
  · rw [List.length_drop]
    omega

def runBestEffortBatches (chunkSize : Nat) : List T → σ → List R × σ
  | [], state => ([], state)
  | item :: rest, state =>
    let first := runBestEffortChunk runChunk (item :: rest.take (chunkSize - 1)) state
    let others := runBestEffortBatches chunkSize (rest.drop (chunkSize - 1)) first.2
    (first.1 ++ others.1, others.2)
termination_by items => items.length
decreasing_by
  rw [List.length_drop, List.length_cons]
  omega

end

/-- The outputs of the wallet: the inputs of actions that are not signed, and the transactions that have been. -/
structure TokenOutputs where
  locked : List String := []
  transactions : List (List String) := []

def TokenOutputs.Spendable (outputs : TokenOutputs) (outpoint : String) : Prop :=
  outpoint ∉ outputs.locked ∧ outpoint ∉ outputs.transactions.flatten

instance (outputs : TokenOutputs) (outpoint : String) : Decidable (outputs.Spendable outpoint) :=
  inferInstanceAs (Decidable (_ ∧ _))

/-- The tokens that fail: before an action with their input exists, or once it does. -/
structure TokenFailures where
  beforeCreate : String → Bool
  afterCreate : String → Bool

namespace TokenBatches
variable (failures : TokenFailures)

def createAction (outpoints : List String) : Fallible PermissionsError TokenOutputs Unit := do
  require (∀ outpoint ∈ outpoints, failures.beforeCreate outpoint = false) (.error "Failed to create signable transaction")
  let outputs ← current
  require (∀ outpoint ∈ outpoints, outputs.Spendable outpoint) (.invalidParameter "inputs" "spendable output unless noSend is true")
  change fun outputs => { outputs with locked := outputs.locked ++ outpoints }

def signAction (outpoints : List String) : Fallible PermissionsError TokenOutputs Unit := do
  require (∀ outpoint ∈ outpoints, failures.afterCreate outpoint = false) (.error "Failed to finalize transaction")
  change fun outputs =>
    { locked := outputs.locked.filter (· ∉ outpoints), transactions := outputs.transactions ++ [outpoints] }

section
variable {T R : Type} (outpoint : T → String) (result : T → R)

def spendChunk (chunk : List T) : Fallible PermissionsError TokenOutputs (List R) := do
  createAction failures (chunk.map outpoint)
  signAction failures (chunk.map outpoint)
  return chunk.map result

end

def tokenOutpoint (token : PermissionToken) : String := token.txid ++ "." ++ toString token.outputIndex

def spendChunkSize : Nat := 15

def revokePermissions (oldTokens : List PermissionToken) : TokenOutputs → List PermissionToken × TokenOutputs :=
  runBestEffortBatches (spendChunk failures tokenOutpoint id) spendChunkSize oldTokens

def renewalRequest (platform : Platform) (item : RenewalItem) : PermissionRequest :=
  { item.item.request with originator := tokenOriginator platform item.item.request.originator }

def renewPermissionTokensBestEffort (platform : Platform) (items : List RenewalItem) : TokenOutputs → List PermissionRequest × TokenOutputs :=
  runBestEffortBatches (spendChunk failures (tokenOutpoint ·.oldToken) (renewalRequest platform)) spendChunkSize items

end TokenBatches
end WalletToolbox

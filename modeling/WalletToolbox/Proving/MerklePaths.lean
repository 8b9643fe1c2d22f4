import WalletToolbox.Chaintracks.LiveHeaders
import WalletToolbox.Provider.ProvenTxReqs

/-! Merkle paths as the services return them, what is used of the SDK for them, and the
chain tracker that confirms their roots. -/

namespace WalletToolbox
open Async Chaintracks

structure MerklePathLeaf where
  offset : Nat
  hash : Option String
  txid : Bool
deriving DecidableEq, Repr

structure MerklePath where
  blockHeight : Nat
  path : List (List MerklePathLeaf)
deriving DecidableEq, Repr

structure MerklePaths where
  computeRoot : MerklePath → String → Except WalletError String
  toBinary : MerklePath → List UInt8
  fromHex : String → Except WalletError MerklePath
  txidOf : List UInt8 → String

def MerklePath.leafOf (path : MerklePath) (txid : String) : Except WalletError (Option MerklePathLeaf) :=
  match path.path with
  | [] => .error (.error "Cannot read properties of undefined (reading 'find')")
  | leaves :: _ => .ok (leaves.find? fun leaf => leaf.txid && leaf.hash = some txid)

structure GetMerklePathResult where
  name : Option String := none
  merklePath : Option MerklePath := none
  header : Option BlockHeader := none
  error : Option WalletError := none
  notes : List ReqHistoryNote := []
deriving DecidableEq, Repr

structure ArcadeTx where
  merklePath : Option String
  blockHash : Option String
  blockHeight : Option Nat
deriving DecidableEq, Repr

/-- What the proof paths await: storage, the merkle path services, chaintracks, and the
server of Arcade, which may answer without success. -/
inductive ProofOp where
  | storage (call : StorageCall)
  | getMerklePath (txid : String)
  | findHeaderForHeight (height : Nat)
  | getArcadeTx (txid : String)

@[reducible] def ProofOp.Reply : ProofOp → Type
  | .storage call => Except WalletError call.Result
  | .getMerklePath _ => Except WalletError GetMerklePathResult
  | .findHeaderForHeight _ => Except WalletError (Option BlockHeader)
  | .getArcadeTx _ => Except WalletError (Option ArcadeTx)

abbrev proofs : Interface := ⟨ProofOp, ProofOp.Reply⟩

abbrev ProofM := Program proofs WalletError

namespace ProofM

def onStorage {α : Type} (method : StorageM α) : ProofM α :=
  method.translate (fun call => .await (.storage call) .ofExcept) fun _ outcome => outcome

def getMerklePath (txid : String) : ProofM GetMerklePathResult := .await (.getMerklePath txid) .ofExcept

def isValidRootForHeight (root : String) (height : Nat) : (tries : Nat) → ProofM Bool
  | 0 => throw (.internal "no header should have returned false or thrown an error.")
  | tries + 1 => .await (.findHeaderForHeight height) fun
    | .ok (some header) => return header.merkleRoot = root
    | .ok none => return false
    | .error _ => isValidRootForHeight root height tries

end ProofM
end WalletToolbox

import WalletToolbox.Proofs.Reads
import WalletToolbox.Provider.StorageProvider
import WalletToolbox.Provider.StorageReaderWriter

/-! The storage calls the methods make that others are written with. -/

namespace WalletToolbox
open Async

def StatusCall : StorageCall → Prop
  | .find .transactions _ | .find .outputs _ | .update .transactions _ _ | .update .outputs _ _ => True
  | _ => False

theorem await_uses {call : StorageCall} (may : allowed call) : call.await.Uses allowed :=
  ⟨may, fun _ => Program.Uses.ofExcept _⟩

theorem verifyOne_uses (results : List α) : (verifyOne results).Uses allowed := by
  unfold verifyOne
  split <;> trivial

theorem retryOnce_uses (uses : attempt.Uses allowed) :
    (retryOnce attempt).Uses allowed := uses.handle fun _ => uses

theorem findOrInsertProvenTx_uses {allowed : StorageCall → Prop} {newProven : TableProvenTx}
    (finds : allowed (.find .provenTxs { txid := newProven.txid })) (inserts : allowed (.insert .provenTxs newProven)) :
    (StorageReaderWriter.findOrInsertProvenTx newProven).Uses allowed := by
  apply retryOnce_uses
  refine Program.Uses.bind (await_uses finds) fun rows => (verifyOneOrNone_uses rows).bind fun found => ?_
  cases found with
  | some proven => trivial
  | none => exact Program.Uses.bind (await_uses inserts) fun _ => trivial

namespace StorageProvider

theorem releaseInputs_uses (inputs : List TableOutput) : (releaseInputs inputs).Uses StatusCall := by
  induction inputs with
  | nil => trivial
  | cons input rest ih =>
    refine Program.Uses.bind ?_ fun _ => Program.Uses.bind (await_uses trivial) fun _ => ih
    unfold verifyId
    split <;> trivial

theorem updateTransactionStatus_uses (status : TransactionStatus) (transactionId userId : Option Nat) (reference : Option String) :
    (updateTransactionStatus status transactionId userId reference).Uses StatusCall := by
  unfold updateTransactionStatus
  split
  · trivial
  · refine Program.Uses.bind (await_uses trivial) fun found => (verifyOne_uses found).bind fun tx => (Program.Uses.ofExcept _).bind fun _ => ?_
    refine Program.Uses.bind ?_ fun _ => Program.Uses.bind (await_uses trivial) fun _ => trivial
    unfold prepareStatus
    split
    · exact Program.Uses.bind (await_uses trivial) fun inputs => releaseInputs_uses inputs
    all_goals trivial

theorem updateTransactionsStatus_uses (ids : List Nat) (status : TransactionStatus) : (updateTransactionsStatus ids status).Uses StatusCall := by
  induction ids with
  | nil => trivial
  | cons id rest ih => exact (updateTransactionStatus_uses _ _ _ _).bind fun _ => ih

end StorageProvider
end WalletToolbox

import WalletToolbox.Storage.StorageRocksDb

/-! The lookups of the provider read the database and leave it alone. -/

namespace WalletToolbox
open Async

def Reads : DbOp → Prop
  | .get _ | .scan _ | .getRange _ => True
  | .put _ _ | .remove _ | .nextId _ | .reserve _ => False

theorem Reads.exec_eq {hash op} (reads : Reads op) (database : Database) :
    (exec hash op database).2 = database := by
  cases op <;> first | rfl | exact reads.elim

def ReadsProven : DbOp → Prop
  | .scan .provenTxs | .scan .provenTxReqs => True
  | _ => False

theorem ReadsProven.reads (op : DbOp) (proven : ReadsProven op) : Reads op := by
  cases op with
  | scan table => trivial
  | get | put | remove | getRange | nextId | reserve => exact proven.elim

theorem verifyOneOrNone_uses (results : List α) :
    (verifyOneOrNone results).Uses allowed := by
  match results with
  | [] | [_] | _ :: _ :: _ => trivial

theorem getPrimary_uses (outputId : Nat) : (RocksDbWalletStore.getPrimary outputId).Uses Reads :=
  (Program.Uses.ofExcept _).bind fun _ => ⟨trivial, fun _ => trivial⟩

namespace RocksDbWalletStore

theorem resolveOutputIds_uses (ids : List Nat) : (resolveOutputIds ids).Uses Reads := by
  induction ids with
  | nil => trivial
  | cons id rest ih =>
    refine (getPrimary_uses id).bind fun record => ih.bind fun outputs => ?_
    cases record <;> trivial

theorem findSpendableOutputs_uses (userId : Nat) (basketId : Option Nat) : (findSpendableOutputs userId basketId).Uses Reads := by
  have ranged (user : Nat) (keyPrefix : IndexPrefix) : (db (.getRange { keyPrefix }) >>= fun records =>
      resolveOutputIndex records >>= fun outputs => pure (outputs.filter fun output =>
        output.userId = user && output.spendable && (basketId.isNone || output.basketId = basketId)) : RocksDbM _).Uses Reads :=
    ⟨trivial, fun _ => (resolveOutputIds_uses _).bind fun _ => trivial⟩
  refine (Program.Uses.ofExcept _).bind fun user => ?_
  cases basketId with
  | none => exact ranged user _
  | some basket => exact (Program.Uses.ofExcept _).bind fun number => ranged user _

theorem findOutputsByTransactionId_uses (transactionId : Nat) : (findOutputsByTransactionId transactionId).Uses Reads :=
  (Program.Uses.ofExcept _).bind fun _ => ⟨trivial, fun _ => (resolveOutputIds_uses _).bind fun _ => trivial⟩

end RocksDbWalletStore

namespace StorageRocksDb

theorem getEntity_uses (table : EntityTable) (key : RowKey) : (getEntity table key).Uses Reads :=
  ⟨trivial, fun _ => trivial⟩

theorem findEntities_uses (table : EntityTable) (primaryId : Option Nat) (accepts : Row table → Bool) :
    (findEntities table primaryId accepts).Uses Reads := by
  cases primaryId with
  | none => exact ⟨trivial, fun _ => trivial⟩
  | some id => exact (getEntity_uses table _).bind fun _ => trivial

theorem getProvenOrRawTx_uses (txid : String) : (getProvenOrRawTx txid).Uses ReadsProven := by
  have proven : (findProvenTxs { txid := some txid }).Uses ReadsProven := ⟨trivial, fun _ => trivial⟩
  have reqs : (findProvenTxReqs { txid := some txid }).Uses ReadsProven := ⟨trivial, fun _ => trivial⟩
  refine proven.bind fun _ => (verifyOneOrNone_uses _).bind fun found => ?_
  cases found with
  | some _ => trivial
  | none =>
    refine reqs.bind fun _ => (verifyOneOrNone_uses _).bind fun req => ?_
    cases req with
    | none => trivial
    | some req =>
      dsimp only
      split <;> trivial

theorem getRawTxOfKnownValidTransaction_uses (txid : Option String) (slice : Option (Nat × Nat)) :
    (getRawTxOfKnownValidTransaction txid slice).Uses ReadsProven := by
  cases txid with
  | none => trivial
  | some txid =>
    refine (getProvenOrRawTx_uses txid).bind fun found => ?_
    cases slice <;> trivial

theorem validateRawTransaction_uses (tx : TableTransaction) : (validateRawTransaction tx).Uses ReadsProven := by
  unfold validateRawTransaction
  split
  · trivial
  · refine (getRawTxOfKnownValidTransaction_uses _ _).bind fun rawTx => ?_
    cases rawTx <;> trivial

theorem validateOutputScript_uses (output : TableOutput) : (validateOutputScript output).Uses Reads := by
  unfold validateOutputScript
  split
  · split
    · trivial
    · refine ((getRawTxOfKnownValidTransaction_uses _ _).mono ReadsProven.reads).bind fun script => ?_
      cases script <;> trivial
  · trivial

theorem findTransactions_uses (wanted : TransactionPartial) (status : List TransactionStatus) (noRawTx : Bool) :
    (findTransactions wanted status noRawTx).Uses Reads := by
  refine (findEntities_uses _ _ _).bind fun rows => ?_
  cases noRawTx with
  | true => trivial
  | false => exact Program.Uses.mapM (fun tx => (validateRawTransaction_uses tx).mono ReadsProven.reads) _

theorem hasTxStatus_uses (txStatus : List TransactionStatus) (output : TableOutput) :
    (hasTxStatus txStatus output).Uses Reads :=
  (findTransactions_uses _ _ _).bind fun _ => (verifyOneOrNone_uses _).bind fun _ => trivial

theorem offers_uses (txStatus : List TransactionStatus) (accepts : TableOutput → Bool) (output : TableOutput) :
    (if accepts output then hasTxStatus txStatus output else return false).Uses Reads := by
  split
  · exact hasTxStatus_uses _ _
  · trivial

theorem transactionStatusForOutput_uses (output : TableOutput) : (transactionStatusForOutput output).Uses Reads :=
  (findTransactions_uses _ _ _).bind fun _ => (verifyOneOrNone_uses _).bind fun _ => trivial

theorem filterM_uses {accepts : α → RocksDbM Bool} (uses : ∀ value, (accepts value).Uses allowed)
    (values : List α) : (values.filterM accepts).Uses allowed := by
  have loop (values kept : List α) : (List.filterAuxM accepts values kept).Uses allowed := by
    induction values generalizing kept with
    | nil => trivial
    | cons first rest ih => exact (uses first).bind fun _ => ih _
  exact (loop values []).bind fun _ => trivial

theorem findOutputsFromIndex_uses (wanted : OutputPartial) : (findOutputsFromIndex wanted).Uses Reads := by
  unfold findOutputsFromIndex
  split
  · exact (RocksDbWalletStore.findSpendableOutputs_uses _ _).bind fun _ => trivial
  · trivial

theorem findOutputs_uses (wanted : OutputPartial) (txStatus : List TransactionStatus) (noScript : Bool) :
    (findOutputs wanted txStatus noScript).Uses Reads := by
  refine Program.Uses.bind ?_ fun rows => Program.Uses.bind ?_ fun rows => ?_
  · refine (findOutputsFromIndex_uses wanted).bind fun indexed => ?_
    cases indexed with
    | some rows => trivial
    | none => exact findEntities_uses _ _ _
  · unfold filterTxStatus
    split
    · trivial
    · exact filterM_uses (hasTxStatus_uses txStatus) rows
  · unfold validateScripts
    split
    · trivial
    · exact Program.Uses.mapM validateOutputScript_uses rows

end StorageRocksDb
end WalletToolbox

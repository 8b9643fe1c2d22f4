import WalletToolbox.Proofs.ActionOutputs
import WalletToolbox.Proofs.RequestLists
import WalletToolbox.Provider.InternalizeAction

/-! The calls of `internalizeAction`: its methods of storage as part of the whole, and the
tables that each of them writes to. -/

namespace WalletToolbox
open StorageReaderWriter StorageProvider
namespace InternalizeAction
open Async StorageRocksDb

section
variable {Beef α β : Type}

theorem onStorage_await (call) (next : Except WalletError call.Result → StorageM α) :
    (onStorage (.await call next) : InternalizeM Beef α) = .await (.storage call) fun reply => onStorage (next reply) := by
  apply Program.await_congr
  intro reply
  cases reply with
  | ok _ => rfl
  | error _ => rfl

def OnStorage (allowed : StorageCall → Prop) : InternalizeOp Beef → Prop
  | .storage call => allowed call
  | .shareReqsWithWorld _ => False

theorem onStorage_uses (uses : method.Uses allowed) :
    (onStorage method : InternalizeM Beef α).Uses (OnStorage allowed) := by
  induction method with
  | done _ | fail _ => trivial
  | await call next ih =>
    rw [onStorage_await]
    exact ⟨uses.1, fun reply => ih reply (uses.2 reply)⟩

theorem onStorage_stores (method) : (onStorage method : InternalizeM Beef α).Uses (OnStorage fun _ => True) := by
  induction method with
  | done _ | fail _ => trivial
  | await call next ih =>
    rw [onStorage_await]
    exact ⟨trivial, ih⟩

theorem onStorage_settles {post : Except WalletError α → Prop}
    (settles : method.Settles (fun _ outcome => post outcome) past) :
    (onStorage method : InternalizeM Beef α).Settles (fun _ outcome => post outcome) more := by
  induction method generalizing past more with
  | done _ | fail _ => exact settles
  | await call next ih =>
    rw [onStorage_await]
    exact fun reply => ih reply (settles reply)

theorem onStorage_run (hash) (now : Clock) (sdk) (method) (database) :
    (onStorage method : InternalizeM sdk.Beef α).run (internalizeAlone hash now sdk) database = method.run (callAlone hash) database := by
  induction method generalizing database with
  | done _ | fail _ => rfl
  | await call next ih =>
    rw [onStorage_await]
    exact ih _ _

theorem stage_onStorage {hash : ScriptHash} {now : Clock} {sdk : Internalizing} {tables : List EntityTable} {database : Database} (sound : SoundStorage database)
    {program : InternalizeM sdk.Beef α} (uses : program.Uses (OnStorage (Within hash tables))) :
    Stage tables database (program.run (internalizeAlone hash now sdk) database).2 := by
  have step : ∀ (op : InternalizeOp sdk.Beef) store, OnStorage (Within hash tables) op → Stage tables database store →
      Stage tables database (internalizeAlone hash now sdk op store).2 := by
    intro op store allowed stage
    cases op with
    | storage call => exact stage.call allowed
    | shareReqsWithWorld r => exact allowed.elim
  exact Program.run_preserves (internalizeAlone hash now sdk) step uses (.refl sound)

end

section
variable {hash : ScriptHash} {now : Clock} {tables : List EntityTable}

theorem upsertProvenTxReq_uses (member : .provenTxReqs ∈ tables) (txid : String) (newReq)
    (unnumbered : ∀ req, newReq = some req → req.provenTxReqId = 0) : (upsertProvenTxReq now txid newReq).Uses (Within hash tables) := by
  refine uses_lookup fun existing => ?_
  cases existing with
  | none =>
    cases newReq with
    | none => trivial
    | some req =>
      refine (uses_await ⟨fun id same => ?_, member⟩).bind fun _ => trivial
      rw [← Option.some.inj same]
      exact unnumbered req rfl
  | some existing =>
    cases newReq with
    | none => trivial
    | some req => exact (uses_await ⟨fun _ => rfl, member⟩).bind fun _ => trivial

theorem getProvenOrReq_uses (member : .provenTxReqs ∈ tables) (txid : String) (newReq)
    (unnumbered : ∀ req, newReq = some req → req.provenTxReqId = 0) : (getProvenOrReq now txid newReq).Uses (Within hash tables) := by
  unfold getProvenOrReq
  split
  · trivial
  · refine uses_lookup fun proven => ?_
    cases proven with
    | some proven => trivial
    | none => exact (uses_retryOnce (upsertProvenTxReq_uses member txid newReq unnumbered)).bind fun _ => trivial

theorem getProvenOrReq_settles (txid : String) (newReq) :
    (getProvenOrReq now txid newReq).Settles (fun _ outcome => ∀ pr, outcome = .ok pr → pr.isNew = none) [] := by
  unfold getProvenOrReq
  split
  · intro pr same
    cases same
  · refine .seq (fun results more _ => .seq (fun found more _ => ?_) fun _ _ _ pr same => by cases same) fun _ _ _ pr same => by cases same
    cases found with
    | some proven =>
      intro pr same
      cases same
      rfl
    | none =>
      refine .seq (fun req more _ pr same => ?_) fun _ _ _ pr same => by cases same
      cases same
      rfl

theorem findOrInsertOutputBasket_uses (member : .outputBaskets ∈ tables) (userId : Nat) (name : String) :
    (findOrInsertOutputBasket userId name).Uses (Within hash tables) := by
  have fresh : Within hash tables (.insert .outputBaskets (newOutputBasket userId name)) :=
    ⟨fun _ same => (Option.some.inj same).symm, member⟩
  exact CreateAction.findOrInsertRestored_uses within_find fresh _ fun _ =>
    (uses_verifyId _).bind fun _ => (uses_await ⟨fun _ => rfl, member⟩).bind fun _ => trivial

theorem getBasket_uses (member : .outputBaskets ∈ tables) (userId : Nat) (baskets) (basketName : String) :
    (getBasket userId baskets basketName).Uses (Within hash tables) := by
  unfold getBasket
  split
  · trivial
  · split
    · trivial
    · exact (findOrInsertOutputBasket_uses member userId basketName).bind fun _ => trivial

theorem tagOutput_uses (tags : .outputTags ∈ tables) (maps : .outputTagsMap ∈ tables) (wanted) (tag : String) :
    (tagOutput wanted tag).Uses (Within hash tables) := by
  have newTag (userId : Nat) : Within hash tables (.insert .outputTags (newOutputTag userId tag)) :=
    ⟨fun _ same => (Option.some.inj same).symm, tags⟩
  have tagged (userId : Nat) : (findOrInsertOutputTag userId tag).Uses (Within hash tables) :=
    CreateAction.findOrInsertRestored_uses within_find (newTag userId) _ fun _ =>
      (uses_verifyId _).bind fun _ => (uses_await ⟨fun _ => rfl, tags⟩).bind fun _ => trivial
  have mapped (outputId outputTagId : Nat) : (findOrInsertOutputTagMap outputId outputTagId).Uses (Within hash tables) :=
    CreateAction.findOrInsertRestored_uses within_find ⟨fun _ same => (by cases same), maps⟩ _ fun _ => (uses_await ⟨fun _ => rfl, maps⟩).bind fun _ => trivial
  refine (uses_await (within_find .outputs _)).bind fun outputs => (uses_verifyOne outputs).bind fun o => ?_
  exact (tagged o.userId).bind fun _ => (uses_verifyId _).bind fun _ => (uses_verifyId _).bind fun _ => (mapped _ _).bind fun _ => trivial

theorem addBasketTags_uses (tags : .outputTags ∈ tables) (maps : .outputTagsMap ∈ tables) (userId outputId : Nat) (names) :
    (addBasketTags userId outputId names).Uses (Within hash tables) := by
  induction names with
  | nil => trivial
  | cons name rest ih => exact (tagOutput_uses tags maps _ name).bind fun _ => ih

def creditTables : List EntityTable := [.outputs, .outputBaskets, .outputTags, .outputTagsMap, .txLabels, .txLabelsMap]

variable (sdk : Internalizing) (userId : Nat) (args : InternalizeActionArgs) (ctx : Context sdk.Beef) (transactionId : Nat)

theorem storeNewWalletPaymentForOutput_uses (payment) :
    (storeNewWalletPaymentForOutput sdk userId ctx transactionId payment).Uses (Within hash creditTables) :=
  (uses_await ⟨fun _ same => (Option.some.inj same).symm, (show .outputs ∈ creditTables by decide)⟩).bind fun _ => trivial

theorem storeNewBasketInsertionForOutput_uses (baskets) (basket) :
    (storeNewBasketInsertionForOutput sdk userId ctx transactionId baskets basket).Uses (Within hash creditTables) := by
  refine (getBasket_uses (by decide) userId baskets _).bind fun found => ?_
  refine (uses_await ⟨fun _ same => (Option.some.inj same).symm, (show .outputs ∈ creditTables by decide)⟩).bind fun txOut => ?_
  exact (addBasketTags_uses (by decide) (by decide) userId _ _).bind fun _ => trivial

theorem storePayments_uses (payments) : (storePayments sdk userId ctx transactionId payments).Uses (Within hash creditTables) := by
  induction payments with
  | nil => trivial
  | cons payment rest ih => exact (storeNewWalletPaymentForOutput_uses sdk userId ctx transactionId payment).bind fun _ => ih

theorem storeInsertions_uses (insertions) (baskets) :
    (storeInsertions sdk userId ctx transactionId insertions baskets).Uses (Within hash creditTables) := by
  induction insertions generalizing baskets with
  | nil => trivial
  | cons basket rest ih => exact (storeNewBasketInsertionForOutput_uses sdk userId ctx transactionId baskets basket).bind fun _ => ih _

theorem storeOutputs_uses : (storeOutputs sdk userId args ctx transactionId).Uses (Within hash creditTables) :=
  (CreateAction.addLabels_uses (by decide) (by decide) userId transactionId args.labels).bind fun _ =>
    (storePayments_uses sdk userId ctx transactionId _).bind fun _ => storeInsertions_uses sdk userId ctx transactionId _ _

end
end InternalizeAction
end WalletToolbox

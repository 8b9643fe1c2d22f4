import WalletToolbox.Async.Traces
import WalletToolbox.Proofs.InternalizeCalls
import WalletToolbox.Proofs.NumberedOutputs

/-! A transaction that storage does not know is credited without being broadcast: whether a
request is new is never said, so no request is shared, and the outputs of a transaction that
stays unproven are stored. -/

namespace WalletToolbox
open CreateAction
namespace InternalizeAction
open Async StorageRocksDb

def PostsTransaction {Beef : Type} (txid : String) : Event (internalizing Beef) → Prop
  | ⟨.shareReqsWithWorld _, reply⟩ => ∃ shared results first, reply = .ok shared ∧ shared.ndr = some results ∧ first ∈ results ∧
      first.txid = txid ∧ first.status = .success
  | ⟨.storage _, _⟩ => False

def StoresOutput {Beef : Type} (txid : String) : Event (internalizing Beef) → Prop
  | ⟨.storage (.insert .outputs row), _⟩ => row.txid = some txid
  | _ => False

/-- The transaction is posted before any of its outputs is stored. Without a post that
succeeds no output of it is stored, and it is not left unproven. -/
structure CreditsBroadcast {Beef : Type} (userId : Nat) (txid : String) (events : List (Event (internalizing Beef))) (after : TableRows) : Prop where
  posted : ∀ earlier event later, events = earlier ++ event :: later → StoresOutput txid event → ∃ post ∈ earlier, PostsTransaction txid post
  unposted : (∀ event ∈ events, ¬ PostsTransaction txid event) → (∀ event ∈ events, ¬ StoresOutput txid event) ∧
    ∀ key tx, after .transactions key = some tx → tx.userId = userId → tx.txid = some txid → tx.status ≠ .unproven

section
variable {hash : ScriptHash} {now : Clock} {sdk : Internalizing} {userId : Nat} {args : InternalizeActionArgs} {database : Database}

theorem newReq_id (ctx : Context sdk.Beef) (transactionId : Nat) : (newReq sdk userId args now ctx transactionId).provenTxReqId = 0 := by
  unfold newReq
  rw [EntityProvenTxReq.addNotifyTransactionId_id, EntityProvenTxReq.addHistoryNote_id, EntityProvenTxReq.setStatus_id]
  rfl

def requestTables : List EntityTable := .provenTxReqs :: creditTables

theorem provenOrReq_uses (ctx : Context sdk.Beef) (transactionId : Nat) (proven : Option TableProvenTx) :
    (provenOrReq sdk userId args now ctx transactionId proven).Uses (Within hash requestTables) := by
  cases proven with
  | some proven => trivial
  | none =>
    refine getProvenOrReq_uses (by decide) _ _ fun req same => ?_
    rw [← Option.some.inj same]
    exact newReq_id ctx transactionId

theorem provenOrReq_settles (ctx : Context sdk.Beef) (transactionId : Nat) (proven : Option TableProvenTx) :
    (provenOrReq sdk userId args now ctx transactionId proven).Settles (fun _ outcome => ∀ pr, outcome = .ok pr → pr.isNew ≠ some true) [] := by
  cases proven with
  | some proven =>
    intro pr same
    cases same
    exact fun new => by cases new
  | none =>
    refine (getProvenOrReq_settles _ _).mono fun _ outcome _ holds pr same => ?_
    rw [holds pr same]
    exact fun new => by cases new

/-- What follows the record of the transaction. -/
def afterTarget (sdk : Internalizing) (userId : Nat) (args : InternalizeActionArgs) (now : Clock) (ctx : Context sdk.Beef) (proven : Option TableProvenTx)
    (etx : TableTransaction) : InternalizeM sdk.Beef StorageInternalizeActionResult := do
  let pr ← onStorage (provenOrReq sdk userId args now ctx etx.transactionId proven)
  let aborted ← shareNewReq sdk args ctx pr
  finishNew sdk userId args ctx etx.transactionId aborted

theorem afterTarget_uses (ctx : Context sdk.Beef) (proven : Option TableProvenTx) (etx : TableTransaction) :
    (afterTarget sdk userId args now ctx proven etx).Uses (OnStorage (Within hash requestTables)) := by
  have settles := @provenOrReq_settles now sdk userId args ctx etx.transactionId proven
  refine @Program.Settles.uses_bind _ _ _ _ _ _ [] _ _ (onStorage_settles settles) (onStorage_uses (provenOrReq_uses ctx etx.transactionId proven)) fun pr known => ?_
  unfold shareNewReq
  rw [if_neg known]
  have stored := (@storeOutputs_uses hash sdk userId args ctx etx.transactionId).mono fun call within =>
    within.mono (List.subset_cons_self EntityTable.provenTxReqs creditTables) call
  exact (onStorage_uses stored).bind fun _ => trivial

theorem newInternalize_uses (ctx : Context sdk.Beef) : (newInternalize sdk userId args now ctx).Uses (OnStorage fun _ => True) := by
  have goesOn (proven : Option TableProvenTx) : (onStorage (findOrInsertTargetTransaction sdk userId args ctx proven) >>=
      afterTarget sdk userId args now ctx proven).Uses (OnStorage fun _ => True) := by
    refine (onStorage_stores _).bind fun etx => (@afterTarget_uses noHash _ _ _ _ ctx proven etx).mono fun op allowed => ?_
    cases op with
    | storage call => trivial
    | shareReqsWithWorld r => exact allowed
  unfold newInternalize
  cases sdk.findTxid ctx.ab ctx.txid with
  | none => trivial
  | some btx =>
    cases sdk.findBump ctx.ab ctx.txid with
    | none => exact goesOn none
    | some bump => exact (onStorage_stores (provenOfBump sdk ctx btx bump)).bind fun proven => goesOn (some proven)

theorem internalizeAction_uses : (internalizeAction sdk userId args now).Uses (OnStorage fun _ => True) := by
  refine (onStorage_stores _).bind fun ctx => ?_
  cases ctx.etx with
  | some etx => exact (onStorage_stores _).bind fun _ => trivial
  | none => exact newInternalize_uses ctx

theorem internalizeAction_unposted (txid : String) :
    ∀ event ∈ (internalizeAction sdk userId args now).trace (internalizeAlone hash now sdk) database, ¬ PostsTransaction txid event := by
  intro event member
  have stores := internalizeAction_uses.trace database event member
  obtain ⟨op, reply⟩ := event
  cases op with
  | storage call => exact id
  | shareReqsWithWorld r => exact stores.elim

def NoTransaction (hash : ScriptHash) (userId : Nat) (txid : String) (database : Database) : Prop :=
  (callAlone hash (.find .transactions { wanted := { userId, txid } }) database).1 = .ok []

theorem validateAtomicBeef_found (validated : validateAtomicBeef sdk args = .ok (ab, tx, txid)) :
    sdk.findTxid ab txid = some tx := by
  obtain ⟨beef, _, validated⟩ := Effects.bind_eq_ok.mp validated
  obtain ⟨txValid, _, validated⟩ := Effects.bind_eq_ok.mp validated
  split at validated
  · next atomic _ =>
    split at validated
    · cases validated
    · next found =>
      cases validated
      exact found
  · cases validated

theorem attachExisting_resolves {ab : sdk.Beef} {tx : BeefTx} {txid : String} {sorted} (changeBasket : TableOutputBasket)
    (found : sdk.findTxid ab txid = some tx) (etx : Option TableTransaction) (known : etx = none → NoTransaction hash userId txid database) : (do
      match etx.filter fun etx => etx.status ∉ mergeStatuses with
      | some etx => throw (.invalidParameter "tx" ("target transaction of internalizeAction has invalid status " ++ etx.status.text ++ "."))
      | none => do
        let eos ← findExistingOutputs userId txid etx.isSome
        let (insertions, payments) ← .ofExcept (attachOutputs eos sorted)
        return {
          ab, tx, txid, changeBasket, etx
          basketInsertions := insertions
          walletPayments := payments.map fun payment => { payment with ignore := isChangeOutput changeBasket payment.eo }
          satoshis := (insertions.map (insertionSatoshis changeBasket)).sum + (payments.map (paymentSatoshis changeBasket)).sum } :
        StorageM (Context sdk.Beef)).Resolves (callAlone hash) database fun ctx after =>
      after = database ∧ (∃ btx, sdk.findTxid ctx.ab ctx.txid = some btx) ∧ (ctx.etx = none → NoTransaction hash userId ctx.txid database) := by
  cases etx.filter fun etx => etx.status ∉ mergeStatuses with
  | some etx => exact .fail _
  | none =>
    have looked : ((findExistingOutputs userId txid etx.isSome).run (callAlone hash) database).2 = database := by
      unfold findExistingOutputs
      split
      · rw [StorageCall.await, Program.run_await, Program.run_ofExcept, callAlone_find]
      · rfl
    apply Program.Resolves.bind
    intro eos after ran
    rw [ran] at looked
    refine .bind (.ofExcept fun attached _ => .done ⟨looked, ⟨tx, found⟩, known⟩)

theorem asyncSetup_resolves : (asyncSetup sdk userId args).Resolves (callAlone hash) database fun ctx after =>
    after = database ∧ (∃ btx, sdk.findTxid ctx.ab ctx.txid = some btx) ∧ (ctx.etx = none → NoTransaction hash userId ctx.txid database) := by
  refine .bind (.ofExcept fun beef validated => ?_)
  obtain ⟨ab, tx, txid⟩ := beef
  have found := validateAtomicBeef_found validated
  refine .bind (.ofExcept fun sorted _ => ?_)
  refine .bind (await_resolves fun baskets _ => ?_)
  rw [callAlone_find]
  refine .bind (verifyOne_resolves fun changeBasket _ => ?_)
  refine .bind (await_resolves fun transactions replied => ?_)
  rw [callAlone_find]
  have goesOn := @attachExisting_resolves hash sdk userId database ab tx txid sorted changeBasket found
  refine .bind (verifyOneOrNone_resolves (fun empty => goesOn none fun _ => ?_) fun etx _ => goesOn (some etx) nofun)
  rw [empty] at replied
  exact replied

theorem findOrInsertTransaction_new {newTx txid} (has : newTx.txid = some txid)
    (new : NoTransaction hash newTx.userId txid database) :
    (StorageReaderWriter.findOrInsertTransaction newTx).run (callAlone hash) database =
      (.ok (insertedRow hash database .transactions newTx, true), (callAlone hash (.insert .transactions newTx) database).2) := by
  have looked : ((StorageCall.find .transactions { wanted := { userId := newTx.userId, txid } }).await).run (callAlone hash) database = (.ok [], database) := by
    rw [await_alone]
    exact Prod.ext new (callAlone_find ..)
  have put : ((StorageCall.insert .transactions newTx).await).run (callAlone hash) database =
      (.ok (insertedRow hash database .transactions newTx), (callAlone hash (.insert .transactions newTx) database).2) := by
    rw [await_alone]
    exact Prod.ext (insertEntity_after .transactions newTx).1 rfl
  apply retryOnce_run
  rw [has]
  dsimp only
  rw [Program.run_bind_of_ok looked]
  exact Program.run_bind_of_ok put

theorem findOrInsertTargetTransaction_new (ctx : Context sdk.Beef) (proven : Option TableProvenTx) (new : NoTransaction hash userId ctx.txid database) :
    (findOrInsertTargetTransaction sdk userId args ctx proven).run (callAlone hash) database =
      (.ok (insertedRow hash database .transactions (newTargetTransaction sdk userId args ctx proven)),
        (callAlone hash (.insert .transactions (newTargetTransaction sdk userId args ctx proven)) database).2) := by
  have recorded := @findOrInsertTransaction_new hash database (newTargetTransaction sdk userId args ctx proven) ctx.txid rfl new
  unfold findOrInsertTargetTransaction
  rw [Program.run_bind_of_ok recorded]
  rfl

theorem newInternalize_unproven (sound : SoundStorage database) {ctx btx} (found : sdk.findTxid ctx.ab ctx.txid = some btx)
    (unproven : sdk.findBump ctx.ab ctx.txid = none) (new : NoTransaction hash userId ctx.txid database) :
    ∃ key tx, ((newInternalize sdk userId args now ctx).run (internalizeAlone hash now sdk) database).2.rows .transactions key = some tx ∧
      tx.userId = userId ∧ tx.txid = some ctx.txid ∧ tx.status = .unproven := by
  have ran := (onStorage_run hash now sdk (findOrInsertTargetTransaction sdk userId args ctx none) database).trans (findOrInsertTargetTransaction_new ctx none new)
  have whole : newInternalize sdk userId args now ctx =
      onStorage (findOrInsertTargetTransaction sdk userId args ctx none) >>= afterTarget sdk userId args now ctx none := by
    unfold newInternalize
    rw [found, unproven]
    rfl
  rw [whole, Program.run_bind_of_ok ran]
  generalize is : newTargetTransaction sdk userId args ctx none = recorded
  have unnumbered : rowId .transactions recorded = some 0 := by
    rw [← is]
    rfl
  have middle := @SoundStorage.call hash _ sound (.insert .transactions recorded) fun _ same => (Option.some.inj (unnumbered.symm.trans same)).symm
  have stage := @stage_onStorage _ hash now sdk _ _ middle _ (@afterTarget_uses hash now sdk userId args ctx none (insertedRow hash database .transactions recorded))
  refine ⟨rowKey .transactions (insertedRow hash database .transactions recorded), insertedRow hash database .transactions recorded, ?_, ?_⟩
  · rw [stage.rows .transactions (by decide), (@insert_rows hash database .transactions recorded).2, TableRows.put_same]
  · have stored : insertedRow hash database .transactions recorded = setRowId .transactions (takeId .transactions database).1 recorded :=
      congrArg Prod.fst (prepared_new unnumbered)
    rw [stored, ← is]
    exact ⟨rfl, rfl, rfl⟩

/-- What is not mined and not known to the user is never credited as it should be: it is not
posted, and stays unproven. -/
theorem internalizeAction_unbroadcast (hash : ScriptHash) (now : Clock) (sdk : Internalizing) (database : Database) (sound : SoundStorage database) (userId : Nat)
    (args : InternalizeActionArgs) {ctx : Context sdk.Beef} (setup : (asyncSetup sdk userId args).run (callAlone hash) database = (.ok ctx, database))
    (new : ctx.etx = none) (unproven : sdk.findBump ctx.ab ctx.txid = none) :
    ¬ CreditsBroadcast userId ctx.txid ((internalizeAction sdk userId args now).trace (internalizeAlone hash now sdk) database)
      ((internalizeAction sdk userId args now).run (internalizeAlone hash now sdk) database).2.rows := by
  intro credits
  obtain ⟨_, ⟨btx, found⟩, absent⟩ := asyncSetup_resolves ctx database setup
  obtain ⟨key, tx, stored, own, same, status⟩ := @newInternalize_unproven _ now _ _ args _ sound _ _ found unproven (absent new)
  have whole : (internalizeAction sdk userId args now).run (internalizeAlone hash now sdk) database =
      (newInternalize sdk userId args now ctx).run (internalizeAlone hash now sdk) database := by
    unfold internalizeAction
    rw [Program.run_bind_of_ok ((onStorage_run hash now sdk _ database).trans setup), new]
  refine (credits.unposted (internalizeAction_unposted ctx.txid)).2 key tx ?_ own same status
  rw [whole]
  exact stored

end
/-- The services and the SDK, with a transaction of one output. -/
def plainInternalizing : Internalizing where
  mergeReqToBeefToShareExternally _ := return
  postBeef _ := .ok []
  getStatusForTxids _ _ := .ok { status := "success", result := none }
  inputs _ := .ok []
  sourceScript _ := .ok none
  getScriptHashHistory _ := .ok none
  isUtxo _ := .ok true
  Beef := Unit
  emptyBeef := ()
  mergeReqToBeef _ beef := return (beef, none)
  verifyBeef _ := .ok true
  getBeefForTransaction beef _ := return beef
  toBinary _ := []
  batch := "b"
  paths := { computeRoot := fun _ _ => .ok "", toBinary := fun _ => [], fromHex := fun _ => .error (.error ""), txidOf := fun _ => "t" }
  fromBinary _ := .ok ()
  atomicTxid _ := some "t"
  findTxid _ _ := some ⟨1, 0, [⟨7, [81]⟩], []⟩
  findBump _ _ := none
  hashForHeight _ := .ok none
  stringify _ := ""
  reference := "r"

def onePayment : InternalizeActionArgs where
  tx := []
  outputs := [{ outputIndex := 0, protocol := .walletPayment, paymentRemittance := some ⟨"p", "s", "k"⟩ }]
  description := ""
  labels := []

def noon : Clock := fun _ => "2024-01-01T12:00:00.000Z"

theorem internalizeAction_unbroadcast_sample : ∃ ctx : Context Unit,
    (asyncSetup plainInternalizing 1 onePayment).run (callAlone noHash) withDefaultBasket = (.ok ctx, withDefaultBasket) ∧
      ¬ CreditsBroadcast 1 ctx.txid
        ((internalizeAction plainInternalizing 1 onePayment noon).trace (internalizeAlone noHash noon plainInternalizing) withDefaultBasket)
        ((internalizeAction plainInternalizing 1 onePayment noon).run (internalizeAlone noHash noon plainInternalizing)
          withDefaultBasket).2.rows := by
  obtain ⟨ctx, setup, new⟩ : ∃ ctx, (asyncSetup plainInternalizing 1 onePayment).run (callAlone noHash) withDefaultBasket =
      (.ok ctx, withDefaultBasket) ∧ ctx.etx = none := ⟨_, rfl, rfl⟩
  exact ⟨ctx, setup, internalizeAction_unbroadcast noHash noon plainInternalizing withDefaultBasket
    withDefaultBasket_sound 1 onePayment setup new rfl⟩

/-- A payment that is stored, with a transaction that nobody has broadcast. -/
theorem unbroadcast_payment :
    (∃ row, ((internalizeAction plainInternalizing 1 onePayment noon).run (internalizeAlone noHash noon plainInternalizing) withDefaultBasket).2.rows
        .outputs (.id 1) = some row ∧ row.txid = some "t" ∧ row.spendable = true) ∧
      ¬ CreditsBroadcast 1 "t" ((internalizeAction plainInternalizing 1 onePayment noon).trace (internalizeAlone noHash noon plainInternalizing) withDefaultBasket)
        ((internalizeAction plainInternalizing 1 onePayment noon).run (internalizeAlone noHash noon plainInternalizing) withDefaultBasket).2.rows := by
  refine ⟨⟨_, rfl, rfl, rfl⟩, fun credits => ?_⟩
  exact (credits.unposted (internalizeAction_unposted "t")).2 (.id 1) _ rfl rfl rfl rfl

end InternalizeAction
end WalletToolbox

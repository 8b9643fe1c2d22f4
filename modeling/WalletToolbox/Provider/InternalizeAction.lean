import WalletToolbox.Provider.CreateAction
import WalletToolbox.Provider.ShareReqsWithWorld
import WalletToolbox.Proving.MerklePaths

/-! `internalizeAction` of storage: outputs of a transaction that exists already are taken
into the wallet, as payments or into a basket. A transaction that the user has is merged
with; a new one is recorded, broadcast if it is not known, and its outputs are stored. -/

namespace WalletToolbox
open Async StorageReaderWriter StorageCall

namespace InternalizeAction

structure BasketInsertion where
  basket : String
  customInstructions : Option String
  tags : List String

structure WalletPayment where
  derivationPrefix : String
  derivationSuffix : String
  senderIdentityKey : String

inductive InternalizeProtocol where
  | walletPayment | basketInsertion
  | other (protocol : String)
deriving DecidableEq, Repr

structure InternalizeOutput where
  outputIndex : Int
  protocol : InternalizeProtocol
  paymentRemittance : Option WalletPayment := none
  insertionRemittance : Option BasketInsertion := none

structure InternalizeActionArgs where
  tx : List UInt8
  outputs : List InternalizeOutput
  description : String
  labels : List String

structure TransactionOutput where
  satoshis : Int
  lockingScript : List UInt8

structure BeefTx where
  version : Nat
  lockTime : Nat
  outputs : List TransactionOutput
  rawTx : List UInt8

/-- What is used of the SDK and of the services. -/
structure Internalizing extends Sharing where
  paths : MerklePaths
  fromBinary : List UInt8 → Except WalletError Beef
  atomicTxid : Beef → Option String
  findTxid : Beef → String → Option BeefTx
  findBump : Beef → String → Option MerklePath
  /-- The hash of the header at a height, of which the services may have none. -/
  hashForHeight : Nat → Except WalletError (Option String)
  stringify : List MerklePathLeaf → String
  reference : String

structure BasketInsertionX extends BasketInsertion where
  vout : Nat
  txo : TransactionOutput
  eo : Option TableOutput := none

structure WalletPaymentX extends WalletPayment where
  vout : Nat
  txo : TransactionOutput
  eo : Option TableOutput := none
  ignore : Bool := false

/-- What is set up before anything is written. The transaction of the user makes it a merge. -/
structure Context (Beef : Type) where
  ab : Beef
  tx : BeefTx
  txid : String
  changeBasket : TableOutputBasket
  etx : Option TableTransaction
  basketInsertions : List BasketInsertionX
  walletPayments : List WalletPaymentX
  satoshis : Int

structure StorageInternalizeActionResult where
  isMerge : Bool
  txid : String
  satoshis : Int
  sendWithResults : Option (List SendWithResult) := none
  notDelayedResults : Option (List ReviewActionResult) := none

inductive InternalizeOp (Beef : Type) where
  | storage (call : StorageCall)
  | shareReqsWithWorld (r : GetReqsAndBeefResult Beef)

@[reducible] def InternalizeOp.Reply {Beef : Type} : InternalizeOp Beef → Type
  | .storage call => Except WalletError call.Result
  | .shareReqsWithWorld _ => Except WalletError ShareResult

abbrev internalizing (Beef : Type) : Interface := ⟨InternalizeOp Beef, InternalizeOp.Reply⟩

abbrev InternalizeM (Beef : Type) := Program (internalizing Beef) WalletError

def onStorage {Beef α : Type} (method : StorageM α) : InternalizeM Beef α :=
  method.translate (fun call => .await (.storage call) .ofExcept) fun _ outcome => outcome

def share {Beef : Type} (r : GetReqsAndBeefResult Beef) : InternalizeM Beef ShareResult :=
  .await (.shareReqsWithWorld r) .ofExcept

/-- Each operation on its own. -/
def internalizeAlone (hash : ScriptHash) (now : Clock) (sdk : Internalizing) : Machine (internalizing sdk.Beef) Database
  | .storage call, database => StorageRocksDb.callAlone hash call database
  | .shareReqsWithWorld r, database => (shareReqsWithWorld now sdk.toSharing [] false (some r)).run (StorageRocksDb.callAlone hash) database

section
variable (sdk : Internalizing) (userId : Nat) (args : InternalizeActionArgs)

def validateAtomicBeef : Except WalletError (sdk.Beef × BeefTx × String) := do
  let ab ← sdk.fromBinary args.tx
  let txValid ← sdk.verifyBeef ab
  match txValid, truthyText (sdk.atomicTxid ab) with
  | true, some txid =>
    match sdk.findTxid ab txid with
    | none => .error (.invalidParameter "tx" ("valid AtomicBEEF with newest txid of " ++ txid))
    | some tx => .ok (ab, tx, txid)
  | _, _ => .error (.invalidParameter "tx" "valid AtomicBEEF")

/-- One output of the arguments. -/
def sortOutput (tx : BeefTx) (o : InternalizeOutput) : Except WalletError (BasketInsertionX ⊕ WalletPaymentX) :=
  if o.outputIndex < 0 then .error (.invalidParameter "outputIndex" ("a valid output index in range 0 to " ++ toString ((tx.outputs.length : Int) - 1)))
  else
    match tx.outputs[o.outputIndex.toNat]? with
    | none => .error (.invalidParameter "outputIndex" ("a valid output index in range 0 to " ++ toString ((tx.outputs.length : Int) - 1)))
    | some txo =>
      match o.protocol with
      | .basketInsertion =>
        match o.insertionRemittance, o.paymentRemittance with
        | some remittance, none => .ok (.inl { remittance with txo, vout := o.outputIndex.toNat })
        | _, _ => .error (.invalidParameter "basket insertion" "valid insertionRemittance and no paymentRemittance")
      | .walletPayment =>
        match o.insertionRemittance, o.paymentRemittance with
        | none, some remittance => .ok (.inr { remittance with txo, vout := o.outputIndex.toNat })
        | _, _ => .error (.invalidParameter "wallet payment" "valid paymentRemittance and no insertionRemittance")
      | .other protocol => .error (.internal ("unexpected protocol " ++ protocol))

def sortOutputs (tx : BeefTx) (outputs : List InternalizeOutput) : Except WalletError (List BasketInsertionX × List WalletPaymentX) := do
  let sorted ← outputs.mapM (sortOutput tx)
  return (sorted.filterMap Sum.getLeft?, sorted.filterMap Sum.getRight?)

def updateFirst {α : Type} (found : α → Bool) (change : α → α) : List α → List α
  | [] => []
  | first :: rest => if found first then change first :: rest else first :: updateFirst found change rest

/-- The stored outputs are handed to what is said of them, one after the other. -/
def attachOutputs : List TableOutput → List BasketInsertionX × List WalletPaymentX → Except WalletError (List BasketInsertionX × List WalletPaymentX)
  | [], sorted => .ok sorted
  | eo :: rest, (insertions, payments) =>
    if insertions.any (·.vout = eo.vout) ∧ payments.any (·.vout = eo.vout) then .error (.invalidParameter "outputs" "unique outputIndex values")
    else attachOutputs rest (updateFirst (fun bi => bi.vout = eo.vout) (fun bi => { bi with eo }) insertions,
      updateFirst (fun wp => wp.vout = eo.vout) (fun wp => { wp with eo }) payments)

def isChangeOutput (changeBasket : TableOutputBasket) (eo : Option TableOutput) : Bool :=
  eo.any fun eo => eo.basketId = some changeBasket.basketId

def insertionSatoshis (changeBasket : TableOutputBasket) (insertion : BasketInsertionX) : Int :=
  if isChangeOutput changeBasket insertion.eo then -insertion.txo.satoshis else 0

def paymentSatoshis (changeBasket : TableOutputBasket) (payment : WalletPaymentX) : Int :=
  if isChangeOutput changeBasket payment.eo then 0 else payment.txo.satoshis

def findExistingOutputs (txid : String) (isMerge : Bool) : StorageM (List TableOutput) :=
  if isMerge then (StorageCall.find .outputs { wanted := { userId, txid } }).await else return []

def mergeStatuses : List TransactionStatus := [.completed, .unproven, .nosend]

def asyncSetup : StorageM (Context sdk.Beef) := do
  let (ab, tx, txid) ← .ofExcept (validateAtomicBeef sdk args)
  let sorted ← .ofExcept (sortOutputs tx args.outputs)
  let changeBasket ← verifyOne (← (StorageCall.find .outputBaskets { userId, name := "default" }).await)
  let etx ← verifyOneOrNone (← (StorageCall.find .transactions { wanted := { userId, txid } }).await)
  match etx.filter fun etx => etx.status ∉ mergeStatuses with
  | some etx => throw (.invalidParameter "tx" ("target transaction of internalizeAction has invalid status " ++ etx.status.text ++ "."))
  | none => do
    let eos ← findExistingOutputs userId txid etx.isSome
    let (insertions, payments) ← .ofExcept (attachOutputs eos sorted)
    return {
      ab, tx, txid, changeBasket, etx
      basketInsertions := insertions
      walletPayments := payments.map fun payment => { payment with ignore := isChangeOutput changeBasket payment.eo }
      satoshis := (insertions.map (insertionSatoshis changeBasket)).sum + (payments.map (paymentSatoshis changeBasket)).sum }

def objectPrototypeKeys : List String :=
  ["constructor", "__defineGetter__", "__defineSetter__", "hasOwnProperty", "__lookupGetter__", "__lookupSetter__", "isPrototypeOf",
    "propertyIsEnumerable", "toString", "valueOf", "__proto__", "toLocaleString"]

def getBasket (baskets : List (String × TableOutputBasket)) (basketName : String) : StorageM (Option Nat × List (String × TableOutputBasket)) :=
  if basketName ∈ objectPrototypeKeys then return (none, baskets)
  else
    match baskets.lookup basketName with
    | some b => return (some b.basketId, baskets)
    | none => do
      let b ← findOrInsertOutputBasket userId basketName
      return (some b.basketId, (basketName, b) :: baskets)

def addBasketTags (outputId : Nat) : List String → StorageM Unit
  | [] => return
  | tag :: rest => do
    tagOutput { outputId, userId } tag
    addBasketTags outputId rest

section
variable (ctx : Context sdk.Beef) (transactionId : Nat)

def newPaymentOutput (payment : WalletPaymentX) : TableOutput where
  outputId := 0
  transactionId := transactionId
  userId := userId
  spendable := true
  lockingScript := some payment.txo.lockingScript
  vout := payment.vout
  basketId := some ctx.changeBasket.basketId
  satoshis := payment.txo.satoshis
  txid := some ctx.txid
  senderIdentityKey := some payment.senderIdentityKey
  type := "P2PKH"
  providedBy := .storage
  purpose := "change"
  derivationPrefix := some payment.derivationPrefix
  derivationSuffix := some payment.derivationSuffix
  change := true
  spentBy := none
  customInstructions := none
  outputDescription := ""
  spendingDescription := none
  sequenceNumber := none
  scriptLength := none
  scriptOffset := none
  scriptHash := none

def storeNewWalletPaymentForOutput (payment : WalletPaymentX) : StorageM Unit := do
  let _ ← (insert .outputs (newPaymentOutput sdk userId ctx transactionId payment)).await

def paymentUpdate (payment : WalletPaymentX) : OutputUpdate where
  basketId := some (some ctx.changeBasket.basketId)
  type := some "P2PKH"
  customInstructions := some none
  change := some true
  providedBy := some .storage
  purpose := some "change"
  senderIdentityKey := some (some payment.senderIdentityKey)
  derivationPrefix := some (some payment.derivationPrefix)
  derivationSuffix := some (some payment.derivationSuffix)

def mergeWalletPaymentForOutput (payment : WalletPaymentX) (eo : TableOutput) : StorageM Unit := do
  let _ ← (update .outputs eo.outputId (paymentUpdate sdk ctx payment)).await

def newInsertionOutput (basketId : Option Nat) (basket : BasketInsertionX) : TableOutput where
  outputId := 0
  transactionId := transactionId
  userId := userId
  spendable := true
  lockingScript := some basket.txo.lockingScript
  vout := basket.vout
  basketId := basketId
  satoshis := basket.txo.satoshis
  txid := some ctx.txid
  type := "custom"
  customInstructions := basket.customInstructions
  change := false
  spentBy := none
  outputDescription := ""
  spendingDescription := none
  providedBy := .you
  purpose := ""
  senderIdentityKey := none
  derivationPrefix := none
  derivationSuffix := none
  sequenceNumber := none
  scriptLength := none
  scriptOffset := none
  scriptHash := none

def storeNewBasketInsertionForOutput (baskets : List (String × TableOutputBasket)) (basket : BasketInsertionX) :
    StorageM (List (String × TableOutputBasket)) := do
  let (basketId, baskets) ← getBasket userId baskets basket.basket
  let txOut ← (insert .outputs (newInsertionOutput sdk userId ctx transactionId basketId basket)).await
  addBasketTags userId txOut.outputId basket.tags
  return baskets

def insertionUpdate (basketId : Option Nat) (basket : BasketInsertionX) : OutputUpdate where
  basketId := some basketId
  type := some "custom"
  customInstructions := some basket.customInstructions
  change := some false
  providedBy := some .you
  purpose := some ""
  senderIdentityKey := some none
  derivationPrefix := some none
  derivationSuffix := some none

def mergeBasketInsertionForOutput (baskets : List (String × TableOutputBasket)) (basket : BasketInsertionX) (eo : TableOutput) :
    StorageM (List (String × TableOutputBasket)) := do
  let (basketId, baskets) ← getBasket userId baskets basket.basket
  let _ ← (update .outputs eo.outputId (insertionUpdate basketId basket)).await
  return baskets

def mergePayment (payment : WalletPaymentX) : StorageM Unit :=
  if payment.ignore then return
  else
    match payment.eo with
    | some eo => mergeWalletPaymentForOutput sdk ctx payment eo
    | none => storeNewWalletPaymentForOutput sdk userId ctx transactionId payment

def mergePayments : List WalletPaymentX → StorageM Unit
  | [] => return
  | payment :: rest => do
    mergePayment sdk userId ctx transactionId payment
    mergePayments rest

def mergeInsertion (baskets : List (String × TableOutputBasket)) (basket : BasketInsertionX) : StorageM (List (String × TableOutputBasket)) :=
  match basket.eo with
  | some eo => mergeBasketInsertionForOutput userId baskets basket eo
  | none => storeNewBasketInsertionForOutput sdk userId ctx transactionId baskets basket

def mergeInsertions : List BasketInsertionX → List (String × TableOutputBasket) → StorageM Unit
  | [], _ => return
  | basket :: rest, baskets => do
    let baskets ← mergeInsertion sdk userId ctx transactionId baskets basket
    mergeInsertions rest baskets

/-- The transaction is not changed. -/
def mergedInternalize : StorageM Unit := do
  CreateAction.addLabels userId transactionId args.labels
  mergePayments sdk userId ctx transactionId ctx.walletPayments
  mergeInsertions sdk userId ctx transactionId ctx.basketInsertions []

def storePayments : List WalletPaymentX → StorageM Unit
  | [] => return
  | payment :: rest => do
    storeNewWalletPaymentForOutput sdk userId ctx transactionId payment
    storePayments rest

def storeInsertions : List BasketInsertionX → List (String × TableOutputBasket) → StorageM Unit
  | [], _ => return
  | basket :: rest, baskets => do
    let baskets ← storeNewBasketInsertionForOutput sdk userId ctx transactionId baskets basket
    storeInsertions rest baskets

def storeOutputs : StorageM Unit := do
  CreateAction.addLabels userId transactionId args.labels
  storePayments sdk userId ctx transactionId ctx.walletPayments
  storeInsertions sdk userId ctx transactionId ctx.basketInsertions []

end

def newTargetTransaction (ctx : Context sdk.Beef) (provenTx : Option TableProvenTx) : TableTransaction where
  transactionId := 0
  provenTxId := provenTx.map TableProvenTx.provenTxId
  status := if provenTx.isSome then .completed else .unproven
  satoshis := ctx.satoshis
  version := some ctx.tx.version
  lockTime := some ctx.tx.lockTime
  reference := sdk.reference
  userId := userId
  isOutgoing := false
  description := args.description
  inputBEEF := none
  txid := some ctx.txid
  rawTx := none

/-- What is written to a transaction that is there already. -/
def targetUpdate (satoshis : Int) (provenTx : Option TableProvenTx) (tx : TableTransaction) : TransactionUpdate where
  satoshis := some (tx.satoshis + satoshis)
  provenTxId := provenTx.map fun proven => some proven.provenTxId
  status := provenTx.map fun _ => .completed

/-- A transaction may only be there already if it was there at the start. -/
def findOrInsertTargetTransaction (ctx : Context sdk.Beef) (provenTx : Option TableProvenTx) : StorageM TableTransaction := do
  let (tx, isNew) ← findOrInsertTransaction (newTargetTransaction sdk userId args ctx provenTx)
  if isNew then return tx
  else if ctx.etx = none then throw (.invalidParameter "tx" "target transaction of internalizeAction is undergoing active changes.")
  else
    let _ ← (update .transactions tx.transactionId (targetUpdate ctx.satoshis provenTx tx)).await
    return tx

/-- A transaction that is mined has its proof in the Beef. -/
def provenOfBump (ctx : Context sdk.Beef) (btx : BeefTx) (bump : MerklePath) : StorageM TableProvenTx := do
  let merkleRoot ← .ofExcept (sdk.paths.computeRoot bump ctx.txid)
  let leaves := bump.path.headD []
  match leaves.find? (·.hash = some ctx.txid) with
  | none =>
    throw (.internal ("Could not determine transaction index for txid " ++ ctx.txid ++
      " in bump path. Expected to find txid in bump.path[0]: " ++ sdk.stringify leaves))
  | some indexEntry =>
    match ← .ofExcept (sdk.hashForHeight bump.blockHeight) with
    | none => throw (.internal ("Block header not found for height " ++ toString bump.blockHeight))
    | some blockHash =>
      let (proven, _) ← findOrInsertProvenTx {
        provenTxId := 0
        txid := ctx.txid
        height := bump.blockHeight
        index := indexEntry.offset
        merklePath := sdk.paths.toBinary bump
        rawTx := btx.rawTx
        blockHash
        merkleRoot }
      return proven

def fromTxid (txid : String) (rawTx inputBEEF : List UInt8) : TableProvenTxReq :=
  { emptyReq with txid, rawTx, inputBEEF := some inputBEEF }

def internalizeNote : ReqHistoryNote where
  what := "internalizeAction"
  properties := [("userId", .number userId)]

/-- The request that is to obtain a proof. -/
def newReq (now : Clock) (ctx : Context sdk.Beef) (transactionId : Nat) : TableProvenTxReq :=
  EntityProvenTxReq.addNotifyTransactionId transactionId
    (EntityProvenTxReq.addHistoryNote now (internalizeNote userId) false
      (EntityProvenTxReq.setStatus now .unsent (fromTxid ctx.txid ctx.tx.rawTx args.tx)))

variable (now : Clock)

def provenOrReq (ctx : Context sdk.Beef) (transactionId : Nat) : Option TableProvenTx → StorageM StorageProvider.StorageProvenOrReq
  | some proven => return { proven, isNew := some false }
  | none => StorageProvider.getProvenOrReq now ctx.txid (some (newReq sdk userId args now ctx transactionId))

def shareNewReq (ctx : Context sdk.Beef) (pr : StorageProvider.StorageProvenOrReq) : InternalizeM sdk.Beef (Option ShareResult) :=
  if pr.isNew = some true then do
    let beef ← .ofExcept (sdk.fromBinary args.tx)
    let shared ← share ⟨beef, [{ txid := ctx.txid, status := .readyToSend, req := pr.req }]⟩
    match shared.ndr with
    | none => throw (.error "Cannot read properties of undefined (reading '0')")
    | some [] => throw (.error "Cannot read properties of undefined (reading 'status')")
    | some (first :: _) => return if first.status ≠ .success then some shared else none
  else return none

def finishNew (ctx : Context sdk.Beef) (transactionId : Nat) : Option ShareResult → InternalizeM sdk.Beef StorageInternalizeActionResult
  | some shared =>
    return { isMerge := false, txid := ctx.txid, satoshis := ctx.satoshis, sendWithResults := some shared.swr, notDelayedResults := shared.ndr }
  | none => do
    onStorage (storeOutputs sdk userId args ctx transactionId)
    return { isMerge := false, txid := ctx.txid, satoshis := ctx.satoshis }

def newInternalize (ctx : Context sdk.Beef) : InternalizeM sdk.Beef StorageInternalizeActionResult := do
  match sdk.findTxid ctx.ab ctx.txid with
  | none => throw (.internal ("Could not find transaction " ++ ctx.txid ++ " in AtomicBEEF"))
  | some btx => do
    let proven ← match sdk.findBump ctx.ab ctx.txid with
      | none => pure none
      | some bump => do pure (some (← onStorage (provenOfBump sdk ctx btx bump)))
    let etx ← onStorage (findOrInsertTargetTransaction sdk userId args ctx proven)
    let pr ← onStorage (provenOrReq sdk userId args now ctx etx.transactionId proven)
    let aborted ← shareNewReq sdk args ctx pr
    finishNew sdk userId args ctx etx.transactionId aborted

def internalizeAction : InternalizeM sdk.Beef StorageInternalizeActionResult := do
  let ctx ← onStorage (asyncSetup sdk userId args)
  match ctx.etx with
  | some etx => do
    onStorage (mergedInternalize sdk userId args ctx etx.transactionId)
    return { isMerge := true, txid := ctx.txid, satoshis := ctx.satoshis }
  | none => newInternalize sdk userId args now ctx

end
end InternalizeAction
end WalletToolbox

import WalletToolbox.Storage.Tables

/-! Partial rows. A partial given to a find selects rows; the partial given to an
update is spread over the stored row. In an update a field is absent, or present
with a value; an optional field may be present and undefined, which clears it. -/

namespace WalletToolbox

/-- `eq` and `eqNullable`: an absent field of the partial accepts every row. -/
def eq {α : Type} [DecidableEq α] (wanted : Option α) (value : α) : Bool :=
  match wanted with
  | none => true
  | some wanted => wanted = value

@[simp] theorem eq_none [DecidableEq α] (value : α) : eq none value = true := rfl
@[simp] theorem eq_some [DecidableEq α] (wanted value : α) :
    (eq (some wanted) value = true) ↔ wanted = value := by simp [eq]

/-- A partial field compared with an optional column. -/
def eqOptional {α : Type} [DecidableEq α] (wanted value : Option α) : Bool :=
  match wanted with
  | none => true
  | some wanted => some wanted = value

@[simp] theorem eqOptional_none [DecidableEq α] (value : Option α) : eqOptional none value = true := rfl
@[simp] theorem eqOptional_some [DecidableEq α] (wanted : α) (value : Option α) :
    (eqOptional (some wanted) value = true) ↔ value = some wanted := by
  simp [eqOptional, eq_comm]

structure UserPartial where
  userId : Option Nat := none
  identityKey : Option String := none
  activeStorage : Option String := none

def UserPartial.matches (wanted : UserPartial) (row : TableUser) : Bool :=
  eq wanted.userId row.userId && eq wanted.identityKey row.identityKey && eq wanted.activeStorage row.activeStorage

structure OutputBasketPartial where
  basketId : Option Nat := none
  userId : Option Nat := none
  name : Option String := none
  isDeleted : Option Bool := none

def matchesOutputBasketPartial (row : TableOutputBasket) (wanted : OutputBasketPartial) : Bool :=
  eq wanted.basketId row.basketId && eq wanted.userId row.userId && eq wanted.name row.name &&
    eq wanted.isDeleted row.isDeleted

structure OutputTagPartial where
  outputTagId : Option Nat := none
  userId : Option Nat := none
  tag : Option String := none
  isDeleted : Option Bool := none

def matchesOutputTagPartial (row : TableOutputTag) (wanted : OutputTagPartial) : Bool :=
  eq wanted.outputTagId row.outputTagId && eq wanted.userId row.userId && eq wanted.tag row.tag &&
    eq wanted.isDeleted row.isDeleted

structure OutputTagMapPartial where
  outputTagId : Option Nat := none
  outputId : Option Nat := none
  isDeleted : Option Bool := none

def matchesOutputTagMapPartial (row : TableOutputTagMap) (wanted : OutputTagMapPartial) : Bool :=
  eq wanted.outputTagId row.outputTagId && eq wanted.outputId row.outputId && eq wanted.isDeleted row.isDeleted

structure TxLabelPartial where
  txLabelId : Option Nat := none
  userId : Option Nat := none
  label : Option String := none
  isDeleted : Option Bool := none

def matchesTxLabelPartial (row : TableTxLabel) (wanted : TxLabelPartial) : Bool :=
  eq wanted.txLabelId row.txLabelId && eq wanted.userId row.userId && eq wanted.label row.label &&
    eq wanted.isDeleted row.isDeleted

structure TxLabelMapPartial where
  txLabelId : Option Nat := none
  transactionId : Option Nat := none
  isDeleted : Option Bool := none

def matchesTxLabelMapPartial (row : TableTxLabelMap) (wanted : TxLabelMapPartial) : Bool :=
  eq wanted.txLabelId row.txLabelId && eq wanted.transactionId row.transactionId && eq wanted.isDeleted row.isDeleted

structure ProvenTxPartial where
  provenTxId : Option Nat := none
  txid : Option String := none
  height : Option Nat := none
  index : Option Nat := none
  blockHash : Option String := none
  merkleRoot : Option String := none

def matchesProvenTxPartial (row : TableProvenTx) (wanted : ProvenTxPartial) : Bool :=
  eq wanted.provenTxId row.provenTxId && eq wanted.txid row.txid && eq wanted.height row.height && eq wanted.index row.index &&
    eq wanted.blockHash row.blockHash && eq wanted.merkleRoot row.merkleRoot

structure ProvenTxReqPartial where
  provenTxReqId : Option Nat := none
  provenTxId : Option Nat := none
  status : Option ProvenTxReqStatus := none
  txid : Option String := none
  batch : Option String := none

def matchesProvenTxReqPartial (row : TableProvenTxReq) (wanted : ProvenTxReqPartial) : Bool :=
  eq wanted.provenTxReqId row.provenTxReqId && eqOptional wanted.provenTxId row.provenTxId &&
    eq wanted.status row.status && eq wanted.txid row.txid && eqOptional wanted.batch row.batch

structure CertificatePartial where
  userId : Option Nat := none
  certificateId : Option Nat := none
  type : Option String := none
  serialNumber : Option String := none
  certifier : Option String := none
  isDeleted : Option Bool := none

def matchesCertificatePartial (row : TableCertificate) (wanted : CertificatePartial) : Bool :=
  eq wanted.userId row.userId && eq wanted.certificateId row.certificateId && eq wanted.type row.type &&
    eq wanted.serialNumber row.serialNumber && eq wanted.certifier row.certifier && eq wanted.isDeleted row.isDeleted

structure TransactionPartial where
  transactionId : Option Nat := none
  userId : Option Nat := none
  provenTxId : Option Nat := none
  isOutgoing : Option Bool := none
  satoshis : Option Int := none
  status : Option TransactionStatus := none
  reference : Option String := none
  description : Option String := none
  txid : Option String := none

def matchesTransactionPartial (row : TableTransaction) (wanted : TransactionPartial) : Bool :=
  eq wanted.transactionId row.transactionId && eq wanted.userId row.userId &&
    eqOptional wanted.provenTxId row.provenTxId && eq wanted.isOutgoing row.isOutgoing &&
    eq wanted.satoshis row.satoshis && eq wanted.status row.status && eq wanted.reference row.reference &&
    eq wanted.description row.description && eqOptional wanted.txid row.txid

structure OutputPartial where
  outputId : Option Nat := none
  userId : Option Nat := none
  transactionId : Option Nat := none
  basketId : Option Nat := none
  spendable : Option Bool := none
  change : Option Bool := none
  vout : Option Nat := none
  satoshis : Option Int := none
  txid : Option String := none
  spentBy : Option Nat := none

def matchesOutputPartial (row : TableOutput) (wanted : OutputPartial) : Bool :=
  eq wanted.outputId row.outputId && eq wanted.userId row.userId && eq wanted.transactionId row.transactionId &&
    eqOptional wanted.basketId row.basketId && eq wanted.spendable row.spendable && eq wanted.change row.change &&
    eq wanted.vout row.vout && eq wanted.satoshis row.satoshis && eqOptional wanted.txid row.txid &&
    eqOptional wanted.spentBy row.spentBy

structure OutputUpdate where
  outputId : Option Nat := none
  userId : Option Nat := none
  transactionId : Option Nat := none
  basketId : Option (Option Nat) := none
  spendable : Option Bool := none
  change : Option Bool := none
  outputDescription : Option String := none
  vout : Option Nat := none
  satoshis : Option Int := none
  providedBy : Option StorageProvidedBy := none
  purpose : Option String := none
  type : Option String := none
  txid : Option (Option String) := none
  senderIdentityKey : Option (Option String) := none
  derivationPrefix : Option (Option String) := none
  derivationSuffix : Option (Option String) := none
  customInstructions : Option (Option String) := none
  spentBy : Option (Option Nat) := none
  sequenceNumber : Option (Option Nat) := none
  spendingDescription : Option (Option String) := none
  scriptLength : Option (Option Nat) := none
  scriptOffset : Option (Option Nat) := none
  lockingScript : Option (Option (List UInt8)) := none
  scriptHash : Option (Option String) := none
deriving DecidableEq, Repr

/-- `{ ...existing, ...update }` -/
def OutputUpdate.spread (update : OutputUpdate) (existing : TableOutput) : TableOutput where
  outputId := update.outputId.getD existing.outputId
  userId := update.userId.getD existing.userId
  transactionId := update.transactionId.getD existing.transactionId
  basketId := update.basketId.getD existing.basketId
  spendable := update.spendable.getD existing.spendable
  change := update.change.getD existing.change
  outputDescription := update.outputDescription.getD existing.outputDescription
  vout := update.vout.getD existing.vout
  satoshis := update.satoshis.getD existing.satoshis
  providedBy := update.providedBy.getD existing.providedBy
  purpose := update.purpose.getD existing.purpose
  type := update.type.getD existing.type
  txid := update.txid.getD existing.txid
  senderIdentityKey := update.senderIdentityKey.getD existing.senderIdentityKey
  derivationPrefix := update.derivationPrefix.getD existing.derivationPrefix
  derivationSuffix := update.derivationSuffix.getD existing.derivationSuffix
  customInstructions := update.customInstructions.getD existing.customInstructions
  spentBy := update.spentBy.getD existing.spentBy
  sequenceNumber := update.sequenceNumber.getD existing.sequenceNumber
  spendingDescription := update.spendingDescription.getD existing.spendingDescription
  scriptLength := update.scriptLength.getD existing.scriptLength
  scriptOffset := update.scriptOffset.getD existing.scriptOffset
  lockingScript := update.lockingScript.getD existing.lockingScript
  scriptHash := update.scriptHash.getD existing.scriptHash

structure TransactionUpdate where
  transactionId : Option Nat := none
  userId : Option Nat := none
  provenTxId : Option (Option Nat) := none
  status : Option TransactionStatus := none
  reference : Option String := none
  isOutgoing : Option Bool := none
  satoshis : Option Int := none
  description : Option String := none
  version : Option (Option Nat) := none
  lockTime : Option (Option Nat) := none
  txid : Option (Option String) := none
  inputBEEF : Option (Option (List UInt8)) := none
  rawTx : Option (Option (List UInt8)) := none
deriving DecidableEq, Repr

def TransactionUpdate.spread (update : TransactionUpdate) (existing : TableTransaction) : TableTransaction where
  transactionId := update.transactionId.getD existing.transactionId
  userId := update.userId.getD existing.userId
  provenTxId := update.provenTxId.getD existing.provenTxId
  status := update.status.getD existing.status
  reference := update.reference.getD existing.reference
  isOutgoing := update.isOutgoing.getD existing.isOutgoing
  satoshis := update.satoshis.getD existing.satoshis
  description := update.description.getD existing.description
  version := update.version.getD existing.version
  lockTime := update.lockTime.getD existing.lockTime
  txid := update.txid.getD existing.txid
  inputBEEF := update.inputBEEF.getD existing.inputBEEF
  rawTx := update.rawTx.getD existing.rawTx

structure ProvenTxReqUpdate where
  provenTxReqId : Option Nat := none
  provenTxId : Option (Option Nat) := none
  status : Option ProvenTxReqStatus := none
  attempts : Option Nat := none
  notified : Option Bool := none
  txid : Option String := none
  batch : Option (Option String) := none
  history : Option (List ReqHistoryNote) := none
  notify : Option (List Nat) := none
  rawTx : Option (List UInt8) := none
  inputBEEF : Option (Option (List UInt8)) := none
  wasBroadcast : Option Bool := none
  rebroadcastAttempts : Option Nat := none
deriving DecidableEq, Repr

def ProvenTxReqUpdate.spread (update : ProvenTxReqUpdate) (existing : TableProvenTxReq) : TableProvenTxReq :=
  { existing with
    provenTxReqId := update.provenTxReqId.getD existing.provenTxReqId
    provenTxId := update.provenTxId.getD existing.provenTxId
    status := update.status.getD existing.status
    attempts := update.attempts.getD existing.attempts
    notified := update.notified.getD existing.notified
    txid := update.txid.getD existing.txid
    batch := update.batch.getD existing.batch
    history := update.history.getD existing.history
    notify := update.notify.getD existing.notify
    rawTx := update.rawTx.getD existing.rawTx
    inputBEEF := update.inputBEEF.getD existing.inputBEEF
    wasBroadcast := update.wasBroadcast.getD existing.wasBroadcast
    rebroadcastAttempts := update.rebroadcastAttempts.getD existing.rebroadcastAttempts }

/-- What a caller hashes scripts with. The hash function itself is the SDK's. -/
abbrev ScriptHash := List UInt8 → String

def applyOutputScriptMetadata (hashOutputLockingScript : ScriptHash) (output : TableOutput) : TableOutput :=
  match output.lockingScript with
  | none | some [] => output
  | some script => { output with scriptHash := some (hashOutputLockingScript script) }

def OutputUpdate.applyScriptMetadata (hashOutputLockingScript : ScriptHash) (update : OutputUpdate) : OutputUpdate :=
  match update.lockingScript with
  | none | some none | some (some []) => update
  | some (some script) => { update with scriptHash := some (some (hashOutputLockingScript script)) }

section
variable (hash : ScriptHash) (output : TableOutput)

theorem applyOutputScriptMetadata_eq :
    ∃ scriptHash, applyOutputScriptMetadata hash output = { output with scriptHash } := by
  unfold applyOutputScriptMetadata
  split
  · exact ⟨output.scriptHash, rfl⟩
  · exact ⟨output.scriptHash, rfl⟩
  · exact ⟨_, rfl⟩

@[simp] theorem applyOutputScriptMetadata_outputId : (applyOutputScriptMetadata hash output).outputId = output.outputId := by
  obtain ⟨_, same⟩ := applyOutputScriptMetadata_eq hash output; rw [same]
@[simp] theorem applyOutputScriptMetadata_transactionId : (applyOutputScriptMetadata hash output).transactionId = output.transactionId := by
  obtain ⟨_, same⟩ := applyOutputScriptMetadata_eq hash output; rw [same]
@[simp] theorem applyOutputScriptMetadata_spendable : (applyOutputScriptMetadata hash output).spendable = output.spendable := by
  obtain ⟨_, same⟩ := applyOutputScriptMetadata_eq hash output; rw [same]
@[simp] theorem applyOutputScriptMetadata_spentBy : (applyOutputScriptMetadata hash output).spentBy = output.spentBy := by
  obtain ⟨_, same⟩ := applyOutputScriptMetadata_eq hash output; rw [same]

end

@[simp] theorem OutputUpdate.applyScriptMetadata_outputId (hash : ScriptHash) (update : OutputUpdate) :
    (update.applyScriptMetadata hash).outputId = update.outputId := by
  unfold OutputUpdate.applyScriptMetadata
  split <;> rfl

def OutputUpdate.KeepsReservation (update : OutputUpdate) : Prop :=
  update.spendable = none ∧ update.spentBy = none

instance (update : OutputUpdate) : Decidable update.KeepsReservation :=
  inferInstanceAs (Decidable (_ ∧ _))

theorem OutputUpdate.KeepsReservation.applyScriptMetadata {update : OutputUpdate} (keeps : update.KeepsReservation)
    (hash : ScriptHash) : (update.applyScriptMetadata hash).KeepsReservation := by
  unfold OutputUpdate.applyScriptMetadata
  split
  · exact keeps
  · exact keeps
  · exact keeps
  · exact keeps

end WalletToolbox

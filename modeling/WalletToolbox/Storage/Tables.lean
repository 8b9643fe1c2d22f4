import Mathlib.Data.Int.Notation

/-! The rows of the wallet tables. Time stamps are left out: what reads them keeps them
beside the row. Identifiers are natural numbers, amounts are integers, byte arrays are lists of
bytes, and the history and notify columns of a request are kept parsed. -/

namespace WalletToolbox

inductive TransactionStatus where
  | completed | failed | unprocessed | sending | unproven | unsigned | nosend | nonfinal | unfail
deriving DecidableEq, Repr

inductive ProvenTxReqStatus where
  | sending | unsent | nosend | unknown | nonfinal | unprocessed | unmined | callback | unconfirmed
  | completed | invalid | doubleSpend | unfail
deriving DecidableEq, Repr

/-- The text of a status, as the index keys and messages hold it. -/
def TransactionStatus.text : TransactionStatus → String
  | completed => "completed"
  | failed => "failed"
  | unprocessed => "unprocessed"
  | sending => "sending"
  | unproven => "unproven"
  | unsigned => "unsigned"
  | nosend => "nosend"
  | nonfinal => "nonfinal"
  | unfail => "unfail"

def ProvenTxReqStatus.text : ProvenTxReqStatus → String
  | sending => "sending"
  | unsent => "unsent"
  | nosend => "nosend"
  | unknown => "unknown"
  | nonfinal => "nonfinal"
  | unprocessed => "unprocessed"
  | unmined => "unmined"
  | callback => "callback"
  | unconfirmed => "unconfirmed"
  | completed => "completed"
  | invalid => "invalid"
  | doubleSpend => "doubleSpend"
  | unfail => "unfail"

inductive NoteValue where
  | flag (value : Bool)
  | text (value : String)
  | number (value : Int)
deriving DecidableEq, Repr

structure ReqHistoryNote where
  when : Option String := none
  what : String
  properties : List (String × NoteValue) := []
deriving DecidableEq, Repr

inductive StorageProvidedBy where
  | you | storage | youAndStorage
deriving DecidableEq, Repr

structure TableUser where
  userId : Nat
  identityKey : String
  activeStorage : String
deriving DecidableEq, Repr

structure TableOutputBasket where
  basketId : Nat
  userId : Nat
  name : String
  numberOfDesiredUTXOs : Int
  minimumDesiredUTXOValue : Int
  isDeleted : Bool
deriving DecidableEq, Repr

structure TableOutputTag where
  outputTagId : Nat
  userId : Nat
  tag : String
  isDeleted : Bool
deriving DecidableEq, Repr

structure TableOutputTagMap where
  outputTagId : Nat
  outputId : Nat
  isDeleted : Bool
deriving DecidableEq, Repr

structure TableTxLabel where
  txLabelId : Nat
  userId : Nat
  label : String
  isDeleted : Bool
deriving DecidableEq, Repr

structure TableTxLabelMap where
  txLabelId : Nat
  transactionId : Nat
  isDeleted : Bool
deriving DecidableEq, Repr

structure TableTransaction where
  transactionId : Nat
  userId : Nat
  provenTxId : Option Nat
  status : TransactionStatus
  reference : String
  isOutgoing : Bool
  satoshis : Int
  description : String
  version : Option Nat
  lockTime : Option Nat
  txid : Option String
  inputBEEF : Option (List UInt8)
  rawTx : Option (List UInt8)
deriving DecidableEq, Repr

structure TableOutput where
  outputId : Nat
  userId : Nat
  transactionId : Nat
  basketId : Option Nat
  spendable : Bool
  change : Bool
  outputDescription : String
  vout : Nat
  satoshis : Int
  providedBy : StorageProvidedBy
  purpose : String
  type : String
  txid : Option String
  senderIdentityKey : Option String
  derivationPrefix : Option String
  derivationSuffix : Option String
  customInstructions : Option String
  spentBy : Option Nat
  sequenceNumber : Option Nat
  spendingDescription : Option String
  scriptLength : Option Nat
  scriptOffset : Option Nat
  lockingScript : Option (List UInt8)
  scriptHash : Option String
deriving DecidableEq, Repr

structure TableProvenTxReq where
  provenTxReqId : Nat
  provenTxId : Option Nat
  status : ProvenTxReqStatus
  attempts : Nat
  notified : Bool
  txid : String
  batch : Option String
  history : List ReqHistoryNote
  notify : List Nat
  rawTx : List UInt8
  inputBEEF : Option (List UInt8)
  wasBroadcast : Bool
  rebroadcastAttempts : Nat
deriving DecidableEq, Repr

structure TableProvenTx where
  provenTxId : Nat
  txid : String
  height : Nat
  index : Nat
  merklePath : List UInt8
  rawTx : List UInt8
  blockHash : String
  merkleRoot : String
deriving DecidableEq, Repr

structure TableCommission where
  commissionId : Nat
  userId : Nat
  transactionId : Nat
  satoshis : Int
  keyOffset : String
  isRedeemed : Bool
  lockingScript : List UInt8
deriving DecidableEq, Repr

structure TableCertificate where
  certificateId : Nat
  userId : Nat
  type : String
  serialNumber : String
  certifier : String
  subject : String
  verifier : Option String
  revocationOutpoint : String
  signature : String
  isDeleted : Bool
deriving DecidableEq, Repr

/-- The tables the modelled operations touch. -/
inductive EntityTable where
  | certificates | commissions | outputBaskets | outputTags | outputTagsMap | outputs
  | provenTxReqs | provenTxs | transactions | txLabels | txLabelsMap | users
deriving DecidableEq, Repr

@[reducible] def Row : EntityTable → Type
  | .certificates => TableCertificate
  | .commissions => TableCommission
  | .outputBaskets => TableOutputBasket
  | .outputTags => TableOutputTag
  | .outputTagsMap => TableOutputTagMap
  | .outputs => TableOutput
  | .provenTxReqs => TableProvenTxReq
  | .provenTxs => TableProvenTx
  | .transactions => TableTransaction
  | .txLabels => TableTxLabel
  | .txLabelsMap => TableTxLabelMap
  | .users => TableUser

/-- The part of an entity key after its table: a numeric id, or the two ids of a map row. -/
inductive RowKey where
  | id (id : Nat)
  | pair (first second : Nat)
deriving DecidableEq, Repr

/-- `definition.key` of each table. -/
def rowKey : (table : EntityTable) → Row table → RowKey
  | .certificates, row => .id row.certificateId
  | .commissions, row => .id row.commissionId
  | .outputBaskets, row => .id row.basketId
  | .outputTags, row => .id row.outputTagId
  | .outputTagsMap, row => .pair row.outputTagId row.outputId
  | .outputs, row => .id row.outputId
  | .provenTxReqs, row => .id row.provenTxReqId
  | .provenTxs, row => .id row.provenTxId
  | .transactions, row => .id row.transactionId
  | .txLabels, row => .id row.txLabelId
  | .txLabelsMap, row => .pair row.txLabelId row.transactionId
  | .users, row => .id row.userId

/-- `definition.id`: the numeric id field of a table that has one. -/
def rowId : (table : EntityTable) → Row table → Option Nat
  | .outputTagsMap, _ | .txLabelsMap, _ => none
  | .certificates, row => some row.certificateId
  | .commissions, row => some row.commissionId
  | .outputBaskets, row => some row.basketId
  | .outputTags, row => some row.outputTagId
  | .outputs, row => some row.outputId
  | .provenTxReqs, row => some row.provenTxReqId
  | .provenTxs, row => some row.provenTxId
  | .transactions, row => some row.transactionId
  | .txLabels, row => some row.txLabelId
  | .users, row => some row.userId

def setRowId : (table : EntityTable) → Nat → Row table → Row table
  | .outputTagsMap, _, row | .txLabelsMap, _, row => row
  | .certificates, id, row => { row with certificateId := id }
  | .commissions, id, row => { row with commissionId := id }
  | .outputBaskets, id, row => { row with basketId := id }
  | .outputTags, id, row => { row with outputTagId := id }
  | .outputs, id, row => { row with outputId := id }
  | .provenTxReqs, id, row => { row with provenTxReqId := id }
  | .provenTxs, id, row => { row with provenTxId := id }
  | .transactions, id, row => { row with transactionId := id }
  | .txLabels, id, row => { row with txLabelId := id }
  | .users, id, row => { row with userId := id }

theorem rowKey_of_rowId {table row id} (has : rowId table row = some id) :
    rowKey table row = .id id := by
  cases table <;> simp_all [rowId, rowKey]

theorem rowId_setRowId (has : (rowId table row).isSome) (fresh : Nat) :
    rowId table (setRowId table fresh row) = some fresh := by
  cases table <;> simp_all [rowId, setRowId]

end WalletToolbox

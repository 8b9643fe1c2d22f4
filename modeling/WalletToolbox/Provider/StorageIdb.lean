import WalletToolbox.Provider.AttemptToPostReqsToNetwork

/-! Storage in object stores. A store holds the rows of a table in the order of their keys; a
find is a scan of it, and an update spreads over the row under its key. Only what finds and
updates do is stated here. -/

namespace WalletToolbox
open Async

abbrev ObjectStores := (table : EntityTable) → List (Row table)

namespace StorageIdb

def sliceReqStatuses : List ProvenTxReqStatus := [.unsent, .nosend, .sending, .unmined, .completed, .unfail]

section
variable (stores : ObjectStores)

/-- A txid is unique among the proofs, and among the requests. -/
def rawTxOf (statuses : List ProvenTxReqStatus) (txid : String) : Option (List UInt8) :=
  match (stores .provenTxs).find? (·.txid = txid) with
  | some proven => some proven.rawTx
  | none => (((stores .provenTxReqs).find? (·.txid = txid)).filter (·.status ∈ statuses)).map TableProvenTxReq.rawTx

def validateOutputScript (o : TableOutput) : TableOutput :=
  match o.scriptLength, o.scriptOffset, o.txid with
  | some (length + 1), some (offset + 1), some txid =>
    if txid = "" ∨ o.lockingScript.map List.length = some (length + 1) then o
    else { o with lockingScript := ((rawTxOf stores sliceReqStatuses txid).map fun rawTx => (rawTx.drop (offset + 1)).take (length + 1)).or o.lockingScript }
  | _, _, _ => o

def validateRawTransaction (t : TableTransaction) : TableTransaction :=
  match truthyText t.txid with
  | none => t
  | some txid => { t with rawTx := t.rawTx.or (rawTxOf stores validReqStatuses txid) }

def findTransactions (args : FindTransactionsArgs) : List TableTransaction :=
  let results := (stores .transactions).filter fun r =>
    (args.status = [] ∨ r.status ∈ args.status) ∧ matchesTransactionPartial r args.wanted
  if args.noRawTx then results.map fun t => { t with rawTx := none, inputBEEF := none } else results.map (validateRawTransaction stores)

def findOutputs (args : FindOutputsArgs) : List TableOutput :=
  let results := (stores .outputs).filter fun r =>
    matchesOutputPartial r args.wanted ∧
      (args.txStatus = [] ∨ (stores .transactions).any fun tx => tx.transactionId = r.transactionId ∧ tx.status ∈ args.txStatus)
  if args.noScript then results.map fun o => { o with lockingScript := none } else results.map (validateOutputScript stores)

def find : (table : EntityTable) → FindArgs table → List (Row table)
  | .outputs, args => findOutputs stores args
  | .transactions, args => findTransactions stores args
  | .certificates, wanted => (stores .certificates).filter (matchesCertificatePartial · wanted)
  | .commissions, wanted => (stores .commissions).filter (matchesCommissionPartial · wanted)
  | .outputBaskets, wanted => (stores .outputBaskets).filter (matchesOutputBasketPartial · wanted)
  | .outputTags, wanted => (stores .outputTags).filter (matchesOutputTagPartial · wanted)
  | .outputTagsMap, wanted => (stores .outputTagsMap).filter (matchesOutputTagMapPartial · wanted)
  | .provenTxReqs, wanted => (stores .provenTxReqs).filter (matchesProvenTxReqPartial · wanted)
  | .provenTxs, wanted => (stores .provenTxs).filter (matchesProvenTxPartial · wanted)
  | .txLabels, wanted => (stores .txLabels).filter (matchesTxLabelPartial · wanted)
  | .txLabelsMap, wanted => (stores .txLabelsMap).filter (matchesTxLabelMapPartial · wanted)
  | .users, wanted => (stores .users).filter (UserPartial.matches wanted ·)

def change (table : EntityTable) (changes : Row table → Row table) : ObjectStores :=
  Function.update stores table ((stores table).map changes)

def put (table : EntityTable) (key : RowKey) (changes : Row table → Row table) : ObjectStores :=
  change stores table fun row => if rowKey table row = key then changes row else row

end

def callAlone (hash : ScriptHash) (others : Machine storage ObjectStores) : Machine storage ObjectStores
  | .find table args, stores => (.ok (find stores table args), stores)
  | .update table key changes, stores =>
    (.ok ((stores table).countP fun row => rowKey table row = UpdateKey.row table key),
      put stores table (UpdateKey.row table key) (updatedRow hash table changes))
  | .insert table row, stores => others (.insert table row) stores
  | .allocateChangeInput userId basketId targetSatoshis exactSatoshis excludeSending transactionId, stores =>
    others (.allocateChangeInput userId basketId targetSatoshis exactSatoshis excludeSending transactionId) stores

end StorageIdb
end WalletToolbox

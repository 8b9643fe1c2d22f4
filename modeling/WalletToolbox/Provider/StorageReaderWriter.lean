import WalletToolbox.Provider.StorageCalls

/-! The find-or-insert methods. Each looks for its row and inserts it when there is
none; whatever goes wrong the first time, it tries once more. An insert of these
tables never rejects, so nothing an attempt has inserted is lost to the second one. -/

namespace WalletToolbox
open Async StorageCall

def retryOnce {α : Type} (attempt : StorageM α) : StorageM α := attempt.handle fun _ => attempt

namespace StorageReaderWriter

def foundOrInserted {table : EntityTable} (fresh : Row table) : Option (Row table) → StorageM (Row table)
  | some row => return row
  | none => (insert table fresh).await

def findOrInsertRestored (table : EntityTable) (wanted : FindArgs table) (fresh : Row table) (isDeleted : Row table → Bool)
    (restore : Row table → StorageM Unit) : StorageM (Row table) :=
  retryOnce do
    let found ← verifyOneOrNone (← (find table wanted).await)
    let row ← foundOrInserted fresh found
    if isDeleted row then
      restore row
      return row
    else return row

def newOutputBasket (userId : Nat) (name : String) : TableOutputBasket where
  basketId := 0
  userId := userId
  name := name
  numberOfDesiredUTXOs := 0
  minimumDesiredUTXOValue := 0
  isDeleted := false

def restoreOutputBasket (basket : TableOutputBasket) : StorageM Unit := do
  let id ← verifyId basket.basketId
  let _ ← (update .outputBaskets id fun row => { row with isDeleted := false }).await

def findOrInsertOutputBasket (userId : Nat) (name : String) : StorageM TableOutputBasket :=
  findOrInsertRestored .outputBaskets { name, userId } (newOutputBasket userId name) TableOutputBasket.isDeleted restoreOutputBasket

def newTxLabel (userId : Nat) (label : String) : TableTxLabel := ⟨0, userId, label, false⟩

def restoreTxLabel (label : TableTxLabel) : StorageM Unit := do
  let id ← verifyId label.txLabelId
  let _ ← (update .txLabels id fun row => { row with isDeleted := false }).await

def findOrInsertTxLabel (userId : Nat) (label : String) : StorageM TableTxLabel :=
  findOrInsertRestored .txLabels { label, userId } (newTxLabel userId label) TableTxLabel.isDeleted restoreTxLabel

def restoreTxLabelMap (map : TableTxLabelMap) : StorageM Unit := do
  let _ ← (update .txLabelsMap (map.txLabelId, map.transactionId) fun row => { row with isDeleted := false }).await

def findOrInsertTxLabelMap (transactionId txLabelId : Nat) : StorageM TableTxLabelMap :=
  findOrInsertRestored .txLabelsMap { transactionId, txLabelId } ⟨txLabelId, transactionId, false⟩ TableTxLabelMap.isDeleted restoreTxLabelMap

def newOutputTag (userId : Nat) (tag : String) : TableOutputTag := ⟨0, userId, tag, false⟩

def restoreOutputTag (tag : TableOutputTag) : StorageM Unit := do
  let id ← verifyId tag.outputTagId
  let _ ← (update .outputTags id fun row => { row with isDeleted := false }).await

def findOrInsertOutputTag (userId : Nat) (tag : String) : StorageM TableOutputTag :=
  findOrInsertRestored .outputTags { tag, userId } (newOutputTag userId tag) TableOutputTag.isDeleted restoreOutputTag

def restoreOutputTagMap (map : TableOutputTagMap) : StorageM Unit := do
  let _ ← (update .outputTagsMap (map.outputTagId, map.outputId) fun row => { row with isDeleted := false }).await

def findOrInsertOutputTagMap (outputId outputTagId : Nat) : StorageM TableOutputTagMap :=
  findOrInsertRestored .outputTagsMap { outputId, outputTagId } ⟨outputTagId, outputId, false⟩ TableOutputTagMap.isDeleted restoreOutputTagMap

/-- The scope of `tagOutput`. -/
def tagOutputScope (wanted : OutputPartial) (tag : String) : StorageM Unit := do
  let o ← verifyOne (← (find .outputs { wanted, noScript := true }).await)
  let outputTag ← findOrInsertOutputTag o.userId tag
  let outputId ← verifyId o.outputId
  let outputTagId ← verifyId outputTag.outputTagId
  let _ ← findOrInsertOutputTagMap outputId outputTagId

def tagOutput (wanted : OutputPartial) (tag : String) : StorageM Unit :=
  StorageRocksDb.transaction (tagOutputScope wanted tag)

def newUser (identityKey storageIdentityKey : String) : TableUser := ⟨0, identityKey, storageIdentityKey⟩

def defaultBasket (userId : Nat) : TableOutputBasket where
  basketId := 0
  userId := userId
  name := "default"
  numberOfDesiredUTXOs := 144
  minimumDesiredUTXOValue := 32
  isDeleted := false

def findOrInsertUser (storageIdentityKey identityKey : String) : StorageM (TableUser × Bool) :=
  retryOnce do
    let found ← verifyOneOrNone (← (find .users { identityKey }).await)
    match found with
    | some user => return (user, false)
    | none => do
      let user ← (insert .users (newUser identityKey storageIdentityKey)).await
      let _ ← (insert .outputBaskets (defaultBasket user.userId)).await
      return (user, true)

def findOrInsertTransaction (newTx : TableTransaction) : StorageM (TableTransaction × Bool) :=
  retryOnce do
    match newTx.txid with
    | none => throw (.invalidParameter "args.partial.txid" "not undefined")
    | some txid => do
      let found ← verifyOneOrNone (← (find .transactions { wanted := { userId := newTx.userId, txid } }).await)
      match found with
      | some tx => return (tx, false)
      | none => do
        let tx ← (insert .transactions newTx).await
        return (tx, true)

def findOrInsertProvenTxReq (newReq : TableProvenTxReq) : StorageM (TableProvenTxReq × Bool) :=
  retryOnce do
    let found ← verifyOneOrNone (← (find .provenTxReqs { txid := newReq.txid }).await)
    match found with
    | some req => return (req, false)
    | none => do
      let req ← (insert .provenTxReqs newReq).await
      return (req, true)

def findOrInsertProvenTx (newProven : TableProvenTx) : StorageM (TableProvenTx × Bool) :=
  retryOnce do
    let found ← verifyOneOrNone (← (find .provenTxs { txid := newProven.txid }).await)
    match found with
    | some proven => return (proven, false)
    | none => do
      let proven ← (insert .provenTxs newProven).await
      return (proven, true)

end StorageReaderWriter
end WalletToolbox

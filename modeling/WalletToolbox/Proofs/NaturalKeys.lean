import WalletToolbox.Async.Guarded
import WalletToolbox.Proofs.Reads
import WalletToolbox.Proofs.Records
import WalletToolbox.Provider.StorageReaderWriter

/-! Natural keys. A find-or-insert call searches for a key and, when nothing has it, puts
a row with it. Whoever has found nothing holds the key until its put; as long as nobody
else puts a row with a key that is held, no key is ever stored twice. -/

namespace WalletToolbox
open Async StorageRocksDb StorageReaderWriter

def naturalKey : (table : EntityTable) → Row table → Option (Option Nat × String)
  | .users, row => some (none, row.identityKey)
  | .outputBaskets, row => some (some row.userId, row.name)
  | .outputTags, row => some (some row.userId, row.tag)
  | .txLabels, row => some (some row.userId, row.label)
  | .transactions, row => some (none, row.reference)
  | .certificates, _ | .commissions, _ | .outputTagsMap, _ | .outputs, _ | .provenTxReqs, _ | .provenTxs, _ | .txLabelsMap, _ => none

def NaturalKeysUnique (records : Records) : Prop :=
  ∀ table key other row twin, records.row table key = some row → records.row table other = some twin →
    (naturalKey table row.value).isSome = true → naturalKey table row.value = naturalKey table twin.value → key = other

def NaturalRowsKeyed (records : Records) : Prop :=
  ∀ table key row, records.row table key = some row → (naturalKey table row.value).isSome = true → rowKey table row.value = key

inductive SearchKey where
  | user (identityKey : String)
  | outputBasket (userId : Nat) (name : String)
  | outputTag (userId : Nat) (tag : String)
  | txLabel (userId : Nat) (label : String)
  | transaction (userId : Nat) (txid : String)
deriving DecidableEq

def SearchKey.table : SearchKey → EntityTable
  | .user _ => .users
  | .outputBasket _ _ => .outputBaskets
  | .outputTag _ _ => .outputTags
  | .txLabel _ _ => .txLabels
  | .transaction _ _ => .transactions

def SearchKey.accepts : SearchKey → (table : EntityTable) → Row table → Bool
  | .user identityKey, .users, row => row.identityKey = identityKey
  | .outputBasket userId name, .outputBaskets, row => row.userId = userId ∧ row.name = name
  | .outputTag userId tag, .outputTags, row => row.userId = userId ∧ row.tag = tag
  | .txLabel userId label, .txLabels, row => row.userId = userId ∧ row.label = label
  | .transaction userId txid, .transactions, row => row.userId = userId ∧ row.txid = some txid
  | _, _, _ => false

def SearchKey.natural : SearchKey → Bool
  | .user _ | .outputBasket _ _ | .outputTag _ _ | .txLabel _ _ => true
  | .transaction _ _ => false

inductive NaturalCall where
  | user (identityKey : String)
  | outputBasket (userId : Nat) (name : String)
  | outputTag (userId : Nat) (tag : String)
  | txLabel (userId : Nat) (label : String)
  | findOrInsertTransaction (newTx : TableTransaction)
  | insertTransaction (tx : TableTransaction)

def NaturalCall.search : NaturalCall → Option SearchKey
  | .user identityKey => some (.user identityKey)
  | .outputBasket userId name => some (.outputBasket userId name)
  | .outputTag userId tag => some (.outputTag userId tag)
  | .txLabel userId label => some (.txLabel userId label)
  | .findOrInsertTransaction newTx => newTx.txid.map (.transaction newTx.userId)
  | .insertTransaction _ => none

def NaturalCall.program (hash : ScriptHash) (storageIdentityKey : String) : NaturalCall → RocksDbM Nat
  | .user identityKey => do
    let found ← perform hash (findOrInsertUser storageIdentityKey identityKey)
    return found.1.userId
  | .outputBasket userId name => do
    let basket ← perform hash (findOrInsertOutputBasket userId name)
    return basket.basketId
  | .outputTag userId tag => do
    let tag ← perform hash (findOrInsertOutputTag userId tag)
    return tag.outputTagId
  | .txLabel userId label => do
    let label ← perform hash (findOrInsertTxLabel userId label)
    return label.txLabelId
  | .findOrInsertTransaction newTx => do
    let found ← perform hash (StorageReaderWriter.findOrInsertTransaction newTx)
    return found.1.transactionId
  | .insertTransaction tx => do
    let tx ← perform hash (StorageCall.insert .transactions tx).await
    return tx.transactionId

/-- The rows a search is after. -/
def accepted (search : Option SearchKey) (table : EntityTable) (row : Row table) : Bool :=
  search.any fun key => key.accepts table row

theorem accepted_cases (accepts : accepted search table row = true) :
    ∃ key, search = some key ∧ key.accepts table row = true := by
  cases search with
  | none => cases accepts
  | some key => exact ⟨key, rfl, accepts⟩

/-- How far a call has come: whether it has found nothing and not put its row yet, and
the row it has got hold of. -/
structure Progress where
  emptyHanded : Bool
  obtained : Option RowKey
deriving DecidableEq

def foundRow (search : Option SearchKey) (table : EntityTable) (rows : List (Row table)) : Option RowKey :=
  match rows.filter (accepted search table) with
  | [row] => some (rowKey table row)
  | _ => none

def Progress.next (search : Option SearchKey) (progress : Progress) (event : Event rocksDb) : Progress :=
  match event with
  | ⟨.scan table, rows⟩ =>
    if search.map SearchKey.table = some table then
      ⟨(rows.map Versioned.value).all (fun row => !accepted search table row), foundRow search table (rows.map Versioned.value)⟩
    else progress
  | ⟨.put (.entity table key) record, _⟩ =>
    if search.map SearchKey.table = some table then
      ⟨false, if accepted search table record.value then some key else none⟩
    else progress
  | _ => progress

def progress (search : Option SearchKey) (past : List (Event rocksDb)) : Progress :=
  past.foldl (Progress.next search) ⟨false, none⟩

@[simp] theorem progress_append (search) (past) (event) :
    progress search (past ++ [event]) = (progress search past).next search event := by
  simp [progress]

def rowKeys : (table : EntityTable) → Row table → Option (Option Nat × String) × Option (Nat × Option String)
  | .transactions, row => (naturalKey .transactions row, some (row.userId, row.txid))
  | table, row => (naturalKey table row, none)

theorem naturalKey_congr (same : rowKeys table row = rowKeys table other) :
    naturalKey table row = naturalKey table other := by
  cases table <;> exact congrArg Prod.fst same

theorem accepts_congr {key : SearchKey} (same : rowKeys table row = rowKeys table other) :
    key.accepts table row = key.accepts table other := by
  cases table <;> cases key <;> simp_all [rowKeys, naturalKey, SearchKey.accepts]

theorem accepted_congr
    (same : rowKeys table row = rowKeys table other) : accepted search table row = accepted search table other := by
  cases search with
  | none => rfl
  | some key => exact accepts_congr same

theorem accepts_table {key : SearchKey} (accepts : key.accepts table row = true) :
    key.table = table ∧ (naturalKey table row).isSome = true := by
  cases table <;> cases key <;> simp_all [SearchKey.accepts, SearchKey.table, naturalKey]

theorem accepts_natural {key : SearchKey} (natural : key.natural = true)
    (accepts : key.accepts table row = true) (same : naturalKey table other = naturalKey table row) : key.accepts table other = true := by
  cases table <;> cases key <;> simp_all [SearchKey.accepts, SearchKey.natural, naturalKey]

theorem mem_scanEntities :
    row ∈ scanEntities table records ↔ ∃ key, records.row table key = some row := by
  unfold scanEntities
  rw [List.mem_filterMap]
  constructor
  · rintro ⟨stored, -, found⟩
    cases stored with
    | entity other key =>
      dsimp only at found
      split at found
      · exact ⟨key, found⟩
      · cases found
    | counter | outputPrimary | index => cases found
  · rintro ⟨key, found⟩
    refine ⟨.entity table key, ?_, ?_⟩
    · exact AList.mem_keys.mp (AList.lookup_isSome.mp (Option.isSome_iff_exists.mpr ⟨row, found⟩))
    · dsimp only
      rw [if_pos rfl]
      exact found

/-- What holds of the store between any two operations. -/
structure NaturalStore (records : Records) : Prop where
  unique : NaturalKeysUnique records
  keyed : NaturalRowsKeyed records

def Persists (before after : Records) : Prop :=
  ∀ table key row, before.row table key = some row → ∃ later, after.row table key = some later ∧
    rowKeys table later.value = rowKeys table row.value

def NoneStored (search : Option SearchKey) (records : Records) : Prop :=
  ∀ table key row, records.row table key = some row → accepted search table row.value = false

def ClearPut (search : Option SearchKey) (records : Records) (table : EntityTable) (key : RowKey) (row : Row table) : Prop :=
  (∀ old, records.row table key = some old → rowKeys table old.value = rowKeys table row) ∧
  ((¬ ∃ sought ∈ search, sought.natural = true ∧ sought.accepts table row = true) → ∀ other twin, records.row table other = some twin →
    (naturalKey table row).isSome = true → naturalKey table twin.value = naturalKey table row → other = key)

inductive NaturalOp (search : Option SearchKey) (progress : Progress) (records : Records) : DbOp → Prop
  | read {op : DbOp} (reads : Reads op) : NaturalOp search progress records op
  | nextId (table : EntityTable) : NaturalOp search progress records (.nextId table)
  | put (table : EntityTable) (key : RowKey) (record : Versioned (Row table))
      (keyed : rowKey table record.value = key)
      (same : ∀ old, records.row table key = some old → rowKeys table old.value = rowKeys table record.value)
      (unique : ∀ other twin, records.row table other = some twin → (naturalKey table record.value).isSome = true →
        naturalKey table twin.value = naturalKey table record.value → other = key)
      (holds : accepted search table record.value = true → NoneStored search records ∨ progress.obtained = some key) :
      NaturalOp search progress records (.put (.entity table key) record)

/-- The contract of a call. -/
def naturalContract (search : Option SearchKey) : Contract rocksDb Database where
  rely past before after := NaturalStore after.records ∧ Persists before.records after.records ∧
    ((progress search past).emptyHanded = true → NoneStored search before.records → NoneStored search after.records)
  permitted _ op database := match op with
    | .put (.entity table key) record => ClearPut search database.records table key record.value
    | _ => True
  promises past op database := NaturalOp search (progress search past) database.records op

end WalletToolbox

import WalletToolbox.Storage.StorageRocksDb

/-! The find methods of the provider with all of their arguments: dates, pages and the
order of the rows as well. A partial is given by the primary id it has and the rows it
matches. The time stamps of a row are kept beside it. -/

namespace WalletToolbox
namespace StorageRocksDb.Finds
open Async

structure Paged where
  limit : Nat
  offset : Nat := 0
deriving DecidableEq, Repr

def slice {α : Type} (paged : Option Paged) (rows : List α) : List α :=
  match paged with
  | none => rows
  | some paged => (rows.drop paged.offset).take paged.limit

structure TimeStamps where
  createdAt : (table : EntityTable) → Row table → Int
  updatedAt : (table : EntityTable) → Row table → Int

structure FindSincePagedArgs where
  since : Option Int := none
  paged : Option Paged := none
  orderDescending : Bool := false

structure Matching (table : EntityTable) where
  primaryId : Option Nat := none
  accepts : Row table → Bool

/-- Every field an output can be found by, dates aside. -/
structure FindOutputsPartial extends OutputPartial where
  sequenceNumber : Option Nat := none
  scriptLength : Option Nat := none
  scriptOffset : Option Nat := none
  outputDescription : Option String := none
  providedBy : Option StorageProvidedBy := none
  purpose : Option String := none
  type : Option String := none
  senderIdentityKey : Option String := none
  derivationPrefix : Option String := none
  derivationSuffix : Option String := none
  customInstructions : Option String := none
  scriptHash : Option String := none

def FindOutputsPartial.accepts (wanted : FindOutputsPartial) (row : TableOutput) : Bool :=
  matchesOutputPartial row wanted.toOutputPartial && eqOptional wanted.sequenceNumber row.sequenceNumber &&
    eqOptional wanted.scriptLength row.scriptLength && eqOptional wanted.scriptOffset row.scriptOffset &&
    eq wanted.outputDescription row.outputDescription && eq wanted.providedBy row.providedBy &&
    eq wanted.purpose row.purpose && eq wanted.type row.type &&
    eqOptional wanted.senderIdentityKey row.senderIdentityKey && eqOptional wanted.derivationPrefix row.derivationPrefix &&
    eqOptional wanted.derivationSuffix row.derivationSuffix && eqOptional wanted.customInstructions row.customInstructions &&
    eqOptional wanted.scriptHash row.scriptHash

def FindOutputsPartial.matching (wanted : FindOutputsPartial) : Matching .outputs := ⟨wanted.outputId, wanted.accepts⟩

/-- The arguments of `findOutputs`, with its `tagIds` and `isQueryModeAll`. -/
structure FindOutputsArgs extends FindSincePagedArgs where
  wanted : FindOutputsPartial
  txStatus : List TransactionStatus := []
  noScript : Bool := false
  tagIds : List Nat := []
  isQueryModeAll : Bool := false

def keepListed {α β : Type} [DecidableEq β] (wanted : List β) (value : α → β) (rows : List α) : List α :=
  if wanted = [] then rows else rows.filter fun row => value row ∈ wanted

variable (stamps : TimeStamps)

def comparesBefore (table : EntityTable) (orderDescending : Bool) (first second : Row table) : Prop :=
  if orderDescending then keyPrecedes (rowKey table second) (rowKey table first) = true
  else keyPrecedes (rowKey table first) (rowKey table second) = true

instance (table : EntityTable) (orderDescending : Bool) (first second : Row table) :
    Decidable (comparesBefore table orderDescending first second) := by
  unfold comparesBefore; infer_instance

def updatedSince (table : EntityTable) (since : Option Int) (rows : List (Row table)) : List (Row table) :=
  match since with
  | none => rows
  | some since => rows.filter fun row => since ≤ stamps.updatedAt table row

def matchedRows (table : EntityTable) (wanted : Matching table) : RocksDbM (List (Row table)) := do
  match wanted.primaryId with
  | some id => return ((← getEntity table (.id id)).filter wanted.accepts).toList
  | none =>
    let records ← db (.scan table)
    return (records.map Versioned.value).filter wanted.accepts

def findEntities (table : EntityTable) (wanted : Matching table) (args : FindSincePagedArgs) : RocksDbM (List (Row table)) := do
  let rows := updatedSince stamps table args.since (← matchedRows table wanted)
  return slice args.paged (rows.insertionSort (comparesBefore table args.orderDescending))

def findOutputTagMaps (wanted : Matching .outputTagsMap) (tagIds : List Nat) (args : FindSincePagedArgs) :
    RocksDbM (List TableOutputTagMap) := do
  return keepListed tagIds TableOutputTagMap.outputTagId (← findEntities stamps .outputTagsMap wanted args)

def findOutputsFromIndex (args : FindOutputsArgs) : RocksDbM (Option (List TableOutput)) := do
  if args.tagIds ≠ [] ∨ args.since.isSome = true ∨ args.paged.isSome = true then return none
  else match args.wanted.spendable, args.wanted.userId with
  | some true, some userId =>
    let indexed ← RocksDbWalletStore.findSpendableOutputs userId args.wanted.basketId
    let rows := indexed.filter args.wanted.accepts
    return some (rows.insertionSort (comparesBefore .outputs args.orderDescending))
  | _, _ => return none

def presents (wanted present : List Nat) (all : Bool) : Bool :=
  if all then wanted.all (· ∈ present) else wanted.any (· ∈ present)

def outputMatchesTags (tagIds : List Nat) (all : Bool) (output : TableOutput) : RocksDbM Bool := do
  let maps ← findOutputTagMaps stamps
    { accepts := (matchesOutputTagMapPartial · { outputId := some output.outputId, isDeleted := some false }) } [] {}
  return presents tagIds (maps.map TableOutputTagMap.outputTagId) all

def filterTags (tagIds : List Nat) (all : Bool) (rows : List TableOutput) : RocksDbM (List TableOutput) :=
  if tagIds = [] then return rows else rows.filterM (outputMatchesTags stamps tagIds all)

def refineOutputs (args : FindOutputsArgs) (rows : List TableOutput) : RocksDbM (List TableOutput) := do
  let rows ← filterTxStatus args.txStatus rows
  let rows ← filterTags stamps args.tagIds args.isQueryModeAll rows
  validateScripts args.noScript rows

/-- `findOutputs` without the way over the index. -/
def scanOutputs (args : FindOutputsArgs) : RocksDbM (List TableOutput) := do
  refineOutputs stamps args (← findEntities stamps .outputs args.wanted.matching args.toFindSincePagedArgs)

def findOutputs (args : FindOutputsArgs) : RocksDbM (List TableOutput) := do
  match ← findOutputsFromIndex args with
  | some rows => refineOutputs stamps args rows
  | none => scanOutputs stamps args

end StorageRocksDb.Finds
end WalletToolbox

import WalletToolbox.Chaintracks.ChaintracksStorageNoDb
import WalletToolbox.Chaintracks.ChaintracksStorageKnex
import WalletToolbox.Chaintracks.ChaintracksStorageIdb

/-! The live header methods that `ChaintracksStorageBase` leaves to its engines. -/

namespace WalletToolbox.Chaintracks

structure ChaintracksStorage (Data : Type) where
  start : Data
  liveHeaders : Data → LiveTable
  insertHeader : Option BulkFile → BlockHeader → Data → Except ChaintracksError InsertHeaderResult × Data
  deleteOlderLiveBlockHeaders : Int → Data → Nat × Data
  findChainTipHeaderOrUndefined : Data → Option LiveBlockHeader
  findLiveHeaderForBlockHash : Data → String → Option LiveBlockHeader
  findLiveHeaderForHeight : Data → Int → Option LiveBlockHeader
  findLiveHeightRange : Data → HeightRange
  liveHeadersForBulk : Data → Nat → List LiveBlockHeader
  getLiveHeaders : Data → HeightRange → List LiveBlockHeader

def chaintracksStorageNoDb : ChaintracksStorage ChaintracksNoDbData where
  start := ChaintracksStorageNoDb.empty
  liveHeaders := ChaintracksNoDbData.liveHeaders
  insertHeader := ChaintracksStorageNoDb.insertHeader
  deleteOlderLiveBlockHeaders := ChaintracksStorageNoDb.deleteOlderLiveBlockHeaders
  findChainTipHeaderOrUndefined := ChaintracksStorageNoDb.findChainTipHeaderOrUndefined
  findLiveHeaderForBlockHash := ChaintracksStorageNoDb.findLiveHeaderForBlockHash
  findLiveHeaderForHeight := ChaintracksStorageNoDb.findLiveHeaderForHeight
  findLiveHeightRange := ChaintracksStorageNoDb.findLiveHeightRange
  liveHeadersForBulk := ChaintracksStorageNoDb.liveHeadersForBulk
  getLiveHeaders := ChaintracksStorageNoDb.getLiveHeaders

def chaintracksStorageKnex : ChaintracksStorage LiveHeaderRows where
  start := ChaintracksStorageKnex.empty
  liveHeaders := LiveHeaderRows.rows
  insertHeader := ChaintracksStorageKnex.insertHeader
  deleteOlderLiveBlockHeaders := ChaintracksStorageKnex.deleteOlderLiveBlockHeaders
  findChainTipHeaderOrUndefined := ChaintracksStorageKnex.findChainTipHeaderOrUndefined
  findLiveHeaderForBlockHash := ChaintracksStorageKnex.findLiveHeaderForBlockHash
  findLiveHeaderForHeight := ChaintracksStorageKnex.findLiveHeaderForHeight
  findLiveHeightRange := ChaintracksStorageKnex.findLiveHeightRange
  liveHeadersForBulk := ChaintracksStorageKnex.liveHeadersForBulk
  getLiveHeaders := ChaintracksStorageKnex.getLiveHeaders

def chaintracksStorageIdb : ChaintracksStorage LiveHeaderStore where
  start := ChaintracksStorageIdb.empty
  liveHeaders := LiveHeaderStore.headers
  insertHeader := ChaintracksStorageIdb.insertHeader
  deleteOlderLiveBlockHeaders := ChaintracksStorageIdb.deleteOlderLiveBlockHeaders
  findChainTipHeaderOrUndefined := ChaintracksStorageIdb.findChainTipHeaderOrUndefined
  findLiveHeaderForBlockHash := ChaintracksStorageIdb.findLiveHeaderForBlockHash
  findLiveHeaderForHeight := ChaintracksStorageIdb.findLiveHeaderForHeight
  findLiveHeightRange := ChaintracksStorageIdb.findLiveHeightRange
  liveHeadersForBulk := ChaintracksStorageIdb.liveHeadersForBulk
  getLiveHeaders := ChaintracksStorageIdb.getLiveHeaders

structure ChaintracksStorageBaseOptions where
  liveHeightThreshold : Int
  bulkMigrationChunkSize : Int
deriving DecidableEq, Repr

/-- Whether `pruneLiveBlockHeaders` has enough headers to migrate any. The minimum height
it remembers is never set. -/
def ChaintracksStorageBaseOptions.migrates (options : ChaintracksStorageBaseOptions) (live : HeightRange) (activeTipHeight : Int) : Bool :=
  decide (activeTipHeight - live.minHeight + 1 - options.liveHeightThreshold ≥ options.bulkMigrationChunkSize)

def ChaintracksStorage.inserted {Data : Type} (storage : ChaintracksStorage Data) (lastFile : BulkFile) (headers : List BlockHeader) : Data :=
  headers.foldl (fun data header => (storage.insertHeader (some lastFile) header data).2) storage.start

/-- Runs of inserts, and of prunes below the active tip, with the headers pruned so far.
The last bulk file matters to an insert only while there is no live header; it is then
the one the run starts with. -/
inductive ChaintracksStorage.Reaches {Data : Type} (storage : ChaintracksStorage Data) (lastFile : BulkFile) (Meets : Data → BlockHeader → Prop) :
    Data → LiveTable → Prop
  | start : storage.Reaches lastFile Meets storage.start []
  | insert {data deleted header file} : storage.Reaches lastFile Meets data deleted → Meets data header →
      (storage.liveHeaders data = [] → file = some lastFile) → storage.Reaches lastFile Meets (storage.insertHeader file header data).2 deleted
  | prune {data deleted} {maxHeight : Int} : storage.Reaches lastFile Meets data deleted →
      (∀ tip, storage.findChainTipHeaderOrUndefined data = some tip → maxHeight < tip.height) →
      storage.Reaches lastFile Meets (storage.deleteOlderLiveBlockHeaders maxHeight data).2
        (deleted ++ (storage.liveHeaders data).filter fun header => (header.height : Int) ≤ maxHeight)

end WalletToolbox.Chaintracks

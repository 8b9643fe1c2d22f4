import WalletToolbox.Chaintracks.LiveHeaders

/-! The IndexedDB storage engine. An index lists its records by their keys and, where
these are equal, by their ids; a record without the indexed property is not listed. -/

namespace WalletToolbox
namespace Chaintracks

/-- The `live_headers` object store, with the id its key generator gives next. -/
structure LiveHeaderStore where
  headers : LiveTable
  /-- Records with an id and no property but `previousHeaderId: null`. -/
  bare : List Nat
  nextHeaderId : Nat
deriving DecidableEq, Repr

namespace ChaintracksStorageIdb

def empty : LiveHeaderStore := ⟨[], [], 1⟩

/-- A header that has been read is written back whole; a `get` needs a key. -/
def engine : LiveEngine where
  previous table header :=
    match header.previousHeaderId with
    | some id => .ok (table.byId id)
    | none => .error .dataError
  setActive table header active := table.put { header with isActive := active }
  clearChainTip table header := table.put { header with isChainTip := false }
  nothingToDeactivate := .ok ()

/-- Takes the link away from the first header that follows the one with the given id. If
there is none, what is put is a new record. -/
def unlinkFollowing (store : LiveHeaderStore) (id : Nat) : LiveHeaderStore :=
  match store.headers.find? fun header => header.previousHeaderId = some id with
  | some headerToUpdate => { store with headers := store.headers.put { headerToUpdate with previousHeaderId := none } }
  | none => { store with bare := store.bare ++ [store.nextHeaderId], nextHeaderId := store.nextHeaderId + 1 }

def byHeight (headers : List LiveBlockHeader) : List LiveBlockHeader := headers.mergeSort fun a b => decide (a.height ≤ b.height)

def deleteOlderLiveBlockHeaders (maxHeight : Int) (store : LiveHeaderStore) : Nat × LiveHeaderStore :=
  let headersToDelete := byHeight (store.headers.filter fun header => (header.height : Int) ≤ maxHeight)
  let headerIdsToDelete := headersToDelete.map (·.headerId)
  let unlinked := headerIdsToDelete.foldl unlinkFollowing store
  (headersToDelete.length, { unlinked with headers := unlinked.headers.filter fun header => header.headerId ∉ headerIdsToDelete })

def findChainTipHeaderOrUndefined (store : LiveHeaderStore) : Option LiveBlockHeader := store.headers.tip

def findLiveHeaderForBlockHash (store : LiveHeaderStore) (hash : String) : Option LiveBlockHeader := store.headers.byHash hash

/-- Whether the header is active is not asked. -/
def findLiveHeaderForHeight (store : LiveHeaderStore) (height : Int) : Option LiveBlockHeader :=
  store.headers.find? fun header => (header.height : Int) = height

def findLiveHeightRange (store : LiveHeaderStore) : HeightRange :=
  match (byHeight store.headers).head?, (byHeight store.headers).getLast? with
  | some first, some last => ⟨first.height, last.height⟩
  | _, _ => HeightRange.empty

def liveHeadersForBulk (store : LiveHeaderStore) (count : Nat) : List LiveBlockHeader :=
  ((byHeight store.headers).filter (·.isActive)).take count

def getLiveHeaders (store : LiveHeaderStore) (range : HeightRange) : List LiveBlockHeader :=
  if range.isEmpty then [] else (byHeight store.headers).filter fun header => range.contains header.height

/-- The heights of `oneBack` and the header are not compared, and nothing is pruned. -/
def insertHeader (lastFile : Option BulkFile) (header : BlockHeader) (store : LiveHeaderStore) :
    Except ChaintracksError InsertHeaderResult × LiveHeaderStore :=
  let r := InsertHeaderResult.none
  if (store.headers.byHash header.hash).isSome then (.ok { r with dupe := true }, store)
  else
    match store.headers.byHash header.previousHash with
    | none =>
      if store.headers.length + store.bare.length = 0 then
        match lastFile with
        | none => (.error .bulkHeadersMustExist, store)
        | some lbf =>
          if header.extends lbf then
            (.ok { r with isActiveTip := true, added := true },
              { store with headers := store.headers ++ [header.first store.nextHeaderId lbf], nextHeaderId := store.nextHeaderId + 1 })
          else (.ok { r with noPrev := true }, store)
      else (.ok { r with noPrev := true }, store)
    | some oneBack =>
      match store.headers.priorTip oneBack with
      | none => (.ok { r with noTip := true }, store)
      | some priorTip =>
        match engine.insertAfter oneBack priorTip (header.following store.nextHeaderId oneBack priorTip) store.headers with
        | (.error err, headers) => (.error err, { store with headers })
        | (.ok result, headers) =>
          (.ok result, { store with headers, nextHeaderId := if result.added then store.nextHeaderId + 1 else store.nextHeaderId })

end ChaintracksStorageIdb
end Chaintracks
end WalletToolbox

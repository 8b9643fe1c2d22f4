import WalletToolbox.Chaintracks.LiveHeaders
import Mathlib.Logic.Function.Basic

/-! The in-memory storage engine. -/

namespace WalletToolbox
namespace Chaintracks

structure ChaintracksNoDbData where
  liveHeaders : LiveTable
  maxHeaderId : Nat
  tipHeaderId : Nat
  hashToHeaderId : String → Option Nat

namespace ChaintracksStorageNoDb

def empty : ChaintracksNoDbData := ⟨[], 0, 0, fun _ => none⟩

/-- A header that has been read is written back whole. -/
def engine : LiveEngine where
  previous table header := .ok (header.previousHeaderId.bind table.byId)
  setActive table header active := table.put { header with isActive := active }
  clearChainTip table header := table.put { header with isChainTip := false }
  nothingToDeactivate := .ok ()

def clearPrevious (maxHeight : Int) (table : LiveTable) (header : LiveBlockHeader) : LiveBlockHeader :=
  match header.previousHeaderId.bind table.byId with
  | some prevHeader => if (prevHeader.height : Int) ≤ maxHeight then { header with previousHeaderId := none } else header
  | none => header

def deleteOlderLiveBlockHeaders (maxHeight : Int) (data : ChaintracksNoDbData) : Nat × ChaintracksNoDbData :=
  let unlinked := data.liveHeaders.map (clearPrevious maxHeight data.liveHeaders)
  let headersToDelete := unlinked.filter fun header => (header.height : Int) ≤ maxHeight
  let kept := unlinked.filter fun header => ¬(header.height : Int) ≤ maxHeight
  (headersToDelete.length,
    { data with
      liveHeaders := kept
      hashToHeaderId := fun hash => if headersToDelete.any fun header => header.hash = hash then none else data.hashToHeaderId hash
      tipHeaderId := (LiveTable.tip kept).elim 0 (·.headerId) })

def findChainTipHeaderOrUndefined (data : ChaintracksNoDbData) : Option LiveBlockHeader := data.liveHeaders.tip

def findLiveHeaderForBlockHash (data : ChaintracksNoDbData) (hash : String) : Option LiveBlockHeader :=
  (data.hashToHeaderId hash).bind data.liveHeaders.byId

def findLiveHeaderForHeight (data : ChaintracksNoDbData) (height : Int) : Option LiveBlockHeader :=
  data.liveHeaders.find? fun header => (header.height : Int) = height && header.isActive

def activeHeaders (data : ChaintracksNoDbData) : List LiveBlockHeader := data.liveHeaders.filter (·.isActive)

def byHeight (headers : List LiveBlockHeader) : List LiveBlockHeader := headers.mergeSort fun a b => decide (a.height ≤ b.height)

def findLiveHeightRange (data : ChaintracksNoDbData) : HeightRange :=
  match (activeHeaders data).map (·.height) with
  | [] => HeightRange.empty
  | height :: heights =>
    let minHeight : Nat := heights.foldl min height
    let maxHeight : Nat := heights.foldl max height
    ⟨minHeight, maxHeight⟩

def liveHeadersForBulk (data : ChaintracksNoDbData) (count : Nat) : List LiveBlockHeader :=
  (byHeight (activeHeaders data)).take count

def getLiveHeaders (data : ChaintracksNoDbData) (range : HeightRange) : List LiveBlockHeader :=
  if range.isEmpty then []
  else byHeight (data.liveHeaders.filter fun header =>
    header.isActive && decide ((header.height : Int) ≥ range.minHeight) && decide ((header.height : Int) ≤ range.maxHeight))

/-- An insert that makes a new active tip also starts `pruneLiveBlockHeaders`, which it
does not await. -/
def insertHeader (lastFile : Option BulkFile) (header : BlockHeader) (data : ChaintracksNoDbData) :
    Except ChaintracksError InsertHeaderResult × ChaintracksNoDbData :=
  let r := InsertHeaderResult.none
  let headerId := data.maxHeaderId + 1
  let store (table : LiveTable) (result : InsertHeaderResult) : ChaintracksNoDbData :=
    { data with
      liveHeaders := table
      maxHeaderId := headerId
      tipHeaderId := if result.added && result.isActiveTip then headerId else data.tipHeaderId
      hashToHeaderId := if result.added then Function.update data.hashToHeaderId header.hash (some headerId) else data.hashToHeaderId }
  if (data.hashToHeaderId header.hash).isSome then (.ok { r with dupe := true }, data)
  else
    match data.liveHeaders.byHash header.previousHash with
    | none =>
      if data.liveHeaders.length = 0 then
        match lastFile with
        | none => (.error .bulkHeadersMustExist, data)
        | some lbf =>
          if header.extends lbf then
            let result := { r with isActiveTip := true, added := true }
            (.ok result, store (data.liveHeaders ++ [header.first headerId lbf]) result)
          else (.ok { r with noPrev := true }, data)
      else (.ok { r with noPrev := true }, data)
    | some oneBack =>
      if oneBack.height + 1 ≠ header.height then (.ok { r with badPrev := true }, data)
      else
        match data.liveHeaders.priorTip oneBack with
        | none => (.ok { r with noTip := true }, data)
        | some priorTip =>
          match engine.insertAfter oneBack priorTip (header.following headerId oneBack priorTip) data.liveHeaders with
          | (.error err, table) => (.error err, { data with liveHeaders := table, maxHeaderId := headerId })
          | (.ok result, table) => (.ok result, store table result)

end ChaintracksStorageNoDb
end Chaintracks
end WalletToolbox

import WalletToolbox.Chaintracks.LiveHeaders

/-! The SQL storage engine. Rows come in the order of their ids. -/

namespace WalletToolbox
namespace Chaintracks

structure LiveHeaderRows where
  rows : LiveTable
  nextHeaderId : Nat
deriving DecidableEq, Repr

namespace ChaintracksStorageKnex

def empty : LiveHeaderRows := ⟨[], 1⟩

def engine : LiveEngine where
  previous table header := .ok (header.previousHeaderId.bind table.byId)
  setActive table header active := table.update header.headerId fun row => { row with isActive := active }
  clearChainTip table header := table.update header.headerId fun row => { row with isChainTip := false }
  nothingToDeactivate := .error .typeError

def clearPrevious (ids : List Nat) (row : LiveBlockHeader) : LiveBlockHeader :=
  if row.previousHeaderId.any fun id => id ∈ ids then { row with previousHeaderId := none } else row

def deleteOlderLiveBlockHeaders (maxHeight : Int) (data : LiveHeaderRows) : Nat × LiveHeaderRows :=
  let unlinked := data.rows.map (clearPrevious ((data.rows.filter fun row => (row.height : Int) ≤ maxHeight).map (·.headerId)))
  ((unlinked.filter fun row => (row.height : Int) ≤ maxHeight).length,
    { data with rows := unlinked.filter fun row => ¬(row.height : Int) ≤ maxHeight })

def findChainTipHeaderOrUndefined (data : LiveHeaderRows) : Option LiveBlockHeader := data.rows.tip

def findLiveHeaderForBlockHash (data : LiveHeaderRows) (hash : String) : Option LiveBlockHeader := data.rows.byHash hash

def findLiveHeaderForHeight (data : LiveHeaderRows) (height : Int) : Option LiveBlockHeader :=
  data.rows.find? fun row => (row.height : Int) = height && row.isActive

def activeRows (data : LiveHeaderRows) : List LiveBlockHeader := data.rows.filter (·.isActive)

def orderByHeight (rows : List LiveBlockHeader) : List LiveBlockHeader := rows.mergeSort fun a b => decide (a.height ≤ b.height)

/-- `min` and `max` are null without rows, and zero counts as missing. -/
def findLiveHeightRange (data : LiveHeaderRows) : HeightRange :=
  match (activeRows data).map (·.height) with
  | [] => ⟨0, -1⟩
  | height :: heights =>
    let minHeight := heights.foldl min height
    let maxHeight := heights.foldl max height
    ⟨minHeight, if maxHeight = 0 then -1 else maxHeight⟩

def liveHeadersForBulk (data : LiveHeaderRows) (count : Nat) : List LiveBlockHeader := (orderByHeight (activeRows data)).take count

def getLiveHeaders (data : LiveHeaderRows) (range : HeightRange) : List LiveBlockHeader :=
  orderByHeight (data.rows.filter fun row =>
    row.isActive && decide ((row.height : Int) ≥ range.minHeight) && decide ((row.height : Int) ≤ range.maxHeight))

/-- An exception rolls the transaction back. An insert that makes a new active tip also
starts `pruneLiveBlockHeaders`, which it does not await. -/
def insertHeader (lastFile : Option BulkFile) (header : BlockHeader) (data : LiveHeaderRows) :
    Except ChaintracksError InsertHeaderResult × LiveHeaderRows :=
  let r := InsertHeaderResult.none
  if (data.rows.filter fun row => row.hash = header.hash).length ≠ 0 then (.ok { r with dupe := true }, data)
  else
    match data.rows.byHash header.previousHash with
    | none =>
      if data.rows.length = 0 then
        match lastFile with
        | none => (.error .bulkHeadersMustExist, data)
        | some lbf =>
          if header.extends lbf then
            (.ok { r with isActiveTip := true, added := true },
              ⟨data.rows ++ [header.first data.nextHeaderId lbf], data.nextHeaderId + 1⟩)
          else (.ok { r with noPrev := true }, data)
      else (.ok { r with noPrev := true }, data)
    | some oneBack =>
      if oneBack.height + 1 ≠ header.height then (.ok { r with badPrev := true }, data)
      else
        match data.rows.priorTip oneBack with
        | none => (.ok { r with noTip := true }, data)
        | some priorTip =>
          match engine.insertAfter oneBack priorTip (header.following data.nextHeaderId oneBack priorTip) data.rows with
          | (.error err, _) => (.error err, data)
          | (.ok result, rows) => (.ok result, ⟨rows, if result.added then data.nextHeaderId + 1 else data.nextHeaderId⟩)

end ChaintracksStorageKnex
end Chaintracks
end WalletToolbox

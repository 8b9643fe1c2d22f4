import WalletToolbox.Async.Program
import WalletToolbox.Chaintracks.BulkFileDataManager

/-! The reader of bulk headers. Readers share the files of one manager: between two awaits
of one of them, the others may load data, and release it. -/

namespace WalletToolbox
namespace Chaintracks
namespace HeightRange

def length (range : HeightRange) : Nat := (range.maxHeight - range.minHeight + 1).toNat

def intersect (range other : HeightRange) : HeightRange := ⟨max range.minHeight other.minHeight, min range.maxHeight other.maxHeight⟩

/-- `contains` of a range. -/
def containsRange (range other : HeightRange) : Bool :=
  decide (range.minHeight ≤ other.minHeight) && decide (range.maxHeight ≥ other.maxHeight)

def union (range other : HeightRange) : Except String HeightRange :=
  if range.isEmpty then .ok other
  else if other.isEmpty then .ok range
  else if range.maxHeight + 1 < other.minHeight ∨ other.maxHeight + 1 < range.minHeight then
    .error "Union of ranges with a gap between them is not supported."
  else .ok ⟨min range.minHeight other.minHeight, max range.maxHeight other.maxHeight⟩

def subtract (range other : HeightRange) : Except String HeightRange :=
  if range.isEmpty ∨ other.isEmpty then .ok range
  else if range.minHeight < other.minHeight ∧ range.maxHeight > other.maxHeight then
    .error "Subtraction of range that creates two disjoint ranges is not supported."
  else if other.maxHeight < range.minHeight ∨ other.minHeight > range.maxHeight then .ok range
  else if other.minHeight ≤ range.minHeight ∧ other.maxHeight < range.maxHeight then .ok ⟨other.maxHeight + 1, range.maxHeight⟩
  else if other.minHeight ≤ range.minHeight ∧ other.maxHeight ≥ range.maxHeight then .ok ⟨range.minHeight, range.minHeight - 1⟩
  else if other.minHeight ≤ range.maxHeight ∧ other.maxHeight ≥ range.maxHeight then .ok ⟨range.minHeight, other.minHeight - 1⟩
  else .error "All cases should have been handled :-) ."

def above (range other : HeightRange) : HeightRange :=
  if other.isEmpty ∨ range.isEmpty then range else ⟨other.maxHeight + 1, range.maxHeight⟩

end HeightRange

namespace Bulk

open Async BulkFileDataManager

/-- What the storage answers when it is asked for a part of a file's data: by the moment,
the file's id, the offset and the length. -/
structure ReadWorld extends World where
  getBulkFileDataPart : Nat → Nat → Nat → Nat → Except BulkError (Option Bytes)

/-- A file as it is when it is looked at, and where its data can be asked for. -/
structure Seen where
  bfd : BulkFileData
  storage : Bool
  fetch : Bool

/-- What a reader waits for. -/
inductive ReadOp where
  | getFileForHeight (height : Int)
  | getBfdForHeight (height : Int)
  | look (index : Nat)
  | getBulkFileData (fileId offset length : Nat)
  /-- The answer of the storage in `ensureData`, and all that is done with it at once. -/
  | ensureStored (index fileId : Nat)
  /-- The download in `ensureData`, the first one or the one that is tried again, and all that is done with it at once. -/
  | ensureDownloaded (index : Nat) (url : String) (again : Bool)
  /-- `ensureData` has returned: the file at `index` is looked at again. -/
  | resume (index : Nat)
deriving DecidableEq, Repr

abbrev ReadOp.Reply : ReadOp → Type
  | .getFileForHeight _ => Except BulkError (Option BulkHeaderFileInfo)
  | .getBfdForHeight _ => Except BulkError (Option (Nat × BulkFileData))
  | .look _ => Option Seen
  | .getBulkFileData _ _ _ => Except BulkError (Option Bytes)
  | .ensureStored _ _ => Except BulkError Unit
  -- A download may be rejected, and data that has arrived may not be the file's.
  | .ensureDownloaded _ _ _ => Except BulkError (Except BulkError Unit)
  | .resume _ => Option BulkFileData

abbrev bulkReads : Interface := ⟨ReadOp, ReadOp.Reply⟩

abbrev ReadM := Program bulkReads BulkError

def awaits (op : ReadOp) : ReadM op.Reply := .await (I := bulkReads) op .done

namespace BulkFileDataManager

def findBfd (manager : BulkFileDataManager) (height : Int) : Except BulkError (Option (Nat × BulkFileData)) :=
  if height < 0 then .error (.invalidParameter "height" s!"a non-negative integer ({height}).")
  else .ok ((manager.bfdForHeight height.toNat).bind fun index => manager.bfds[index]?.map fun bfd => (index, bfd))

def getHeightRange (manager : BulkFileDataManager) : HeightRange :=
  match manager.bfds.head?, manager.getLastBfd with
  | some first, some last => ⟨first.firstHeight, last.firstHeight + last.count - 1⟩
  | _, _ => .empty

def waited (manager : BulkFileDataManager) : BulkFileDataManager := { manager with clock := manager.clock + 1 }

def setData (manager : BulkFileDataManager) (index : Nat) (data : Option Bytes) (mru : Nat) : BulkFileDataManager :=
  { manager with bfds := manager.bfds.modify index fun bfd => { bfd with data, mru } }

def arrived (world : World) (manager : BulkFileDataManager) (index : Nat) (data : Bytes) : Except BulkError Unit × BulkFileDataManager :=
  let loaded := manager.setData index (some data) (manager.now world)
  match manager.bfds[index]? with
  | none => (.error .typeError, manager)
  | some bfd =>
    if world.fileHash data = bfd.fileHash then (.ok (), loaded.ensureMaxRetained)
    else (.error (.invalidParameter "fileHash" s!"a match for retrieved data for {bfd.fileName}"), loaded)

end BulkFileDataManager

/-- What happens at once when a reader goes on. -/
def readExec (world : ReadWorld) : Machine bulkReads BulkFileDataManager
  | .getFileForHeight height, manager => ((manager.findBfd height).map (·.map fun found => bfdToInfo found.2 false), manager)
  | .getBfdForHeight height, manager => (manager.findBfd height, manager)
  | .look index, manager => (manager.bfds[index]?.map fun bfd => ⟨bfd, manager.storage, manager.fetch⟩, manager)
  | .getBulkFileData fileId offset length, manager => (world.getBulkFileDataPart manager.clock fileId offset length, manager.waited)
  | .ensureStored index fileId, manager =>
    match (world.replies manager.clock).getBulkFileData fileId with
    | .error error => (.error error, manager.waited)
    | .ok none => (.error (.invalidParameter "fileId" s!"valid, data not found for fileId {fileId}"),
        manager.waited.setData index none ((manager.bfds[index]?.map (·.mru)).getD 0))
    | .ok (some data) => manager.waited.arrived world.toWorld index data
  | .ensureDownloaded index url _, manager =>
    match (world.replies manager.clock).download url with
    | .error error => (.error error, manager.waited)
    | .ok data =>
      let (outcome, after) := manager.waited.arrived world.toWorld index data
      (.ok outcome, after)
  | .resume index, manager => (manager.bfds[index]?, manager)

def ensureDataOf (world : ReadWorld) (index : Nat) (seen : Seen) : ReadM Unit :=
  if seen.bfd.data.isSome then pure ()
  else
    match seen.storage, truthyId seen.bfd.fileId with
    | true, some fileId => do
      let outcome ← awaits (.ensureStored index fileId)
      Program.ofExcept outcome
    | _, _ =>
      match seen.fetch, truthyText seen.bfd.sourceUrl with
      | true, some sourceUrl => do
        let url := world.pathJoin sourceUrl seen.bfd.fileName
        let first ← awaits (.ensureDownloaded index url false)
        match first with
        | .ok outcome => Program.ofExcept outcome
        | .error _ => do
          -- The first download has failed, and is tried once more.
          let second ← awaits (.ensureDownloaded index url true)
          let outcome ← Program.ofExcept second
          Program.ofExcept outcome
      | _, _ => throw (.invalidParameter "data" s!"defined. Unable to retrieve data for {seen.bfd.fileName}")

def slice (data : Bytes) (offset length : Nat) : Bytes := (data.drop offset).take length

def getDataFromFileNoLock (world : ReadWorld) (index offset length : Nat) : ReadM (Option Bytes) := do
  match ← awaits (.look index) with
  | none => throw .typeError
  | some seen =>
    let fileLength := seen.bfd.count * 80
    if fileLength ≤ offset then pure none
    else
      let length := min (if length = 0 then fileLength - offset else length) (fileLength - offset)
      -- The data, or else the file as it is to be loaded.
      let (data, seen) ← match seen.bfd.data, seen.storage, truthyId seen.bfd.fileId with
        | some data, _, _ => pure (some (slice data offset length), seen)
        | none, true, some fileId => do
          let part ← awaits (.getBulkFileData fileId offset length)
          match ← Program.ofExcept part with
          | some data => pure (some data, seen)
          | none =>
            match ← awaits (.look index) with
            | none => throw .typeError
            | some seen => pure (none, seen)
        | none, _, _ => pure (none, seen)
      match data with
      | some data => pure (some data)
      | none => do
        ensureDataOf world index seen
        let bfd ← awaits (.resume index)
        pure ((bfd.bind (·.data)).map (slice · offset length))

def getDataFromFile (world : ReadWorld) (file : BulkHeaderFileInfo) (offset length : Nat) : ReadM (Option Bytes) := do
  let found ← awaits (.getBfdForHeight file.firstHeight)
  match ← Program.ofExcept found with
  | none => throw (.invalidParameter "file" s!"a match for {file.firstHeight}, {file.count} in the BulkFileDataManager.")
  | some (index, bfd) =>
    if bfd.count < file.count then
      throw (.invalidParameter "file" s!"a match for {file.firstHeight}, {file.count} in the BulkFileDataManager.")
    else getDataFromFileNoLock world index offset length

structure BulkFileDataReader where
  range : HeightRange
  maxBufferSize : Nat
  nextHeight : Int
deriving DecidableEq, Repr

def BulkFileDataReader.new (range : HeightRange) (maxBufferSize : Nat) : BulkFileDataReader := ⟨range, maxBufferSize, range.minHeight⟩

def readBufferFromFile (world : ReadWorld) (file : BulkHeaderFileInfo) (range : HeightRange) : ReadM (Option Bytes) :=
  let fileRange := HeightRange.intersect ⟨file.firstHeight, file.firstHeight + file.count - 1⟩ range
  if fileRange.isEmpty then pure none
  else getDataFromFile world file ((fileRange.minHeight - file.firstHeight).toNat * 80) (fileRange.length * 80)

/-- The files from `file` on, as far as they are in the range, after what `buffers` holds.
Each file that is read has a header of the range, so there is no round without one left. -/
def readFiles (world : ReadWorld) (readRange : HeightRange) : Nat → Option BulkHeaderFileInfo → Bytes → ReadM Bytes
  | 0, _, buffers => pure buffers
  | _ + 1, none, buffers => pure buffers
  | rounds + 1, some file, buffers => do
    match ← readBufferFromFile world file readRange with
    | none => pure buffers
    | some buffer =>
      if readRange.length * 80 < buffers.length + buffer.length then throw .rangeError
      else
        let next ← awaits (.getFileForHeight (file.firstHeight + file.count))
        let next ← Program.ofExcept next
        readFiles world readRange rounds next (buffers ++ buffer)

def read (world : ReadWorld) (reader : BulkFileDataReader) : ReadM (Option Bytes × BulkFileDataReader) :=
  if reader.range.isEmpty ∨ reader.nextHeight > reader.range.maxHeight then pure (none, reader)
  else do
    let lastHeight := min (reader.nextHeight + (reader.maxBufferSize / 80 : Nat) - 1) reader.range.maxHeight
    let file ← awaits (.getFileForHeight reader.nextHeight)
    match ← Program.ofExcept file with
    | none => throw (.internal "logic error")
    | some file =>
      let readRange : HeightRange := ⟨reader.nextHeight, lastHeight⟩
      let buffers ← readFiles world readRange (readRange.length + 1) (some file) []
      if readRange.length = 0 ∨ buffers.length ≠ readRange.length * 80 then pure (none, reader)
      else pure (some buffers, { reader with nextHeight := lastHeight + 1 })

/-- Reads until there is nothing more, at most so many times. -/
def readAll (world : ReadWorld) : Nat → BulkFileDataReader → ReadM (List Bytes)
  | 0, _ => pure []
  | times + 1, reader => do
    let (buffer, reader) ← read world reader
    match buffer with
    | none => pure []
    | some buffer => do
      let rest ← readAll world times reader
      pure (buffer :: rest)

end Bulk
end Chaintracks
end WalletToolbox

import Mathlib.Data.List.Sort
import WalletToolbox.Chaintracks.BlockHeaderUtilities
import WalletToolbox.Effects.Fallible

/-! The manager of bulk header files. Hashes, the storage and the network are given by a
`World`; a chain work is the number its hex string spells, and none for an empty string. -/

namespace WalletToolbox.Chaintracks.Bulk

open Effects Fallible

inductive BulkError where
  | invalidParameter (parameter mustBe : String)
  | internal (message : String)
  | error (message : String)
  | typeError
  | rangeError
  | rejected
deriving DecidableEq, Repr

def addWork (work1 work2 : Int) : Int := work1 + work2

def subWork (work1 work2 : Int) : Int := work1 - work2

def workText : Option Int → String
  | none => ""
  | some work => String.ofList ((Nat.toDigits 16 work.toNat).leftpad 64 '0')

/-- What a file's record and its info have in common. -/
structure BulkFileFields where
  fileName : String
  firstHeight : Nat
  count : Nat
  prevChainWork : Option Int
  lastChainWork : Option Int
  prevHash : String
  lastHash : Option String
  chain : Option Chain
  data : Option Bytes
  validated : Bool
  fileId : Option Nat
  sourceUrl : Option String
deriving DecidableEq, Repr

structure BulkHeaderFileInfo extends BulkFileFields where
  fileHash : Option String
deriving DecidableEq, Repr

structure BulkFileData extends BulkFileFields where
  fileHash : String
  mru : Nat
deriving DecidableEq, Repr

def truthyId : Option Nat → Option Nat
  | some 0 => none
  | id => id

def truthyText : Option String → Option String
  | some "" => none
  | text => text

theorem truthyText_some (truthy : truthyText text = some given) : text = some given := by
  unfold truthyText at truthy
  split at truthy
  · simp at truthy
  · exact truthy

def isBdfIncremental (bfd : BulkFileFields) : Bool := bfd.fileName == "incremental" && (truthyText bfd.sourceUrl).isNone

def isBdfCdn (bfd : BulkFileFields) : Bool := !isBdfIncremental bfd

def bfdToInfo (bfd : BulkFileData) (keepData : Bool) : BulkHeaderFileInfo :=
  { bfd with fileHash := some bfd.fileHash, data := if keepData then bfd.data else none }

structure Replies where
  now : Nat
  getBulkFileData : Nat → Except BulkError (Option Bytes)
  insertBulkFile : BulkHeaderFileInfo → Except BulkError Nat
  updateBulkFile : Nat → BulkHeaderFileInfo → Except BulkError Unit
  deleteBulkFile : Nat → Except BulkError Unit
  download : String → Except BulkError Bytes

structure World where
  fileHash : Bytes → String
  /-- The double sha256 hash of a header, reversed, in hexadecimal. -/
  blockHash : Bytes → String
  validBulkHeaderFiles : List BulkHeaderFileInfo
  pathJoin : String → String → String
  replies : Nat → Replies

structure BulkFileDataManager where
  chain : Chain
  maxPerFile : Nat
  maxRetained : Option Nat
  fetch : Bool
  storage : Bool
  bfds : List BulkFileData
  fileHashToIndex : String → Option Nat
  clock : Nat

structure BulkFileDataManagerMergeResult where
  inserted : List BulkHeaderFileInfo
  updated : List BulkHeaderFileInfo
  unchanged : List BulkHeaderFileInfo
  dropped : List BulkHeaderFileInfo
deriving DecidableEq, Repr

abbrev BulkM := Fallible BulkError BulkFileDataManager

namespace BulkFileDataManager

def now (world : World) (manager : BulkFileDataManager) : Nat := (world.replies manager.clock).now

def bfdForHeight (manager : BulkFileDataManager) (height : Nat) : Option Nat :=
  manager.bfds.findIdx? fun bfd => bfd.firstHeight ≤ height && height < bfd.firstHeight + bfd.count

def getBfdForHeight (manager : BulkFileDataManager) (height : Nat) : Option BulkFileData :=
  (manager.bfdForHeight height).bind fun index => manager.bfds[index]?

def getLastBfd (manager : BulkFileDataManager) : Option BulkFileData := manager.bfds.getLast?

/-- Releases the data of the least recently used files that can be loaded again. -/
def ensureMaxRetained (manager : BulkFileDataManager) : BulkFileDataManager :=
  match manager.maxRetained with
  | none => manager
  | some maxRetained =>
    let withData := (List.range manager.bfds.length).filter fun index => manager.bfds[index]?.any fun bfd =>
      bfd.data.isSome && ((truthyId bfd.fileId).isSome || (truthyText bfd.sourceUrl).isSome)
    let mru := fun index => (manager.bfds[index]?.map (·.mru)).getD 0
    let released := (withData.insertionSort fun a b => mru a ≤ mru b).take (withData.length - maxRetained)
    { manager with bfds := manager.bfds.mapIdx fun index bfd => if index ∈ released then { bfd with data := none } else bfd }

end BulkFileDataManager

open BulkFileDataManager

variable (world : World)

def retrieve (manager : BulkFileDataManager) (bfd : BulkFileData) : Except BulkError Bytes × Nat :=
  match manager.storage, truthyId bfd.fileId with
  | true, some fileId =>
    match (world.replies manager.clock).getBulkFileData fileId with
    | .error error => (.error error, manager.clock + 1)
    | .ok none => (.error (.invalidParameter "fileId" s!"valid, data not found for fileId {fileId}"), manager.clock + 1)
    | .ok (some data) => (.ok data, manager.clock + 1)
  | _, _ =>
    match manager.fetch, truthyText bfd.sourceUrl with
    | true, some sourceUrl =>
      let url := world.pathJoin sourceUrl bfd.fileName
      match (world.replies manager.clock).download url with
      | .ok data => (.ok data, manager.clock + 1)
      | .error _ => ((world.replies (manager.clock + 1)).download url, manager.clock + 2)
    | _, _ => (.error (.invalidParameter "data" s!"defined. Unable to retrieve data for {bfd.fileName}"), manager.clock)

structure Loaded where
  bfd : BulkFileData
  retrieved : Bool
  outcome : Except BulkError Unit
  clock : Nat

def load (manager : BulkFileDataManager) (bfd : BulkFileData) : Loaded :=
  match bfd.data with
  | some _ => ⟨bfd, false, .ok (), manager.clock⟩
  | none =>
    match retrieve world manager bfd with
    | (.error error, clock) => ⟨bfd, false, .error error, clock⟩
    | (.ok data, clock) =>
      let loaded := { bfd with data := some data, mru := (world.replies clock).now }
      if world.fileHash data = bfd.fileHash then ⟨loaded, true, .ok (), clock⟩
      else ⟨loaded, true, .error (.invalidParameter "fileHash" s!"a match for retrieved data for {bfd.fileName}"), clock⟩

def ensureData (bfd : BulkFileData) : BulkM BulkFileData := fun manager =>
  let loaded := load world manager bfd
  let waited := { manager with clock := loaded.clock }
  match loaded.outcome with
  | .error error => (.error error, waited)
  | .ok () => (.ok loaded.bfd, if loaded.retrieved then waited.ensureMaxRetained else waited)

def ensureDataAt (index : Nat) : BulkM Unit := fun manager =>
  match manager.bfds[index]? with
  | none => (.error .typeError, manager)
  | some bfd =>
    let loaded := load world manager bfd
    let waited := { manager with bfds := manager.bfds.set index loaded.bfd, clock := loaded.clock }
    match loaded.outcome with
    | .error error => (.error error, waited)
    | .ok () => (.ok (), if loaded.retrieved then waited.ensureMaxRetained else waited)

def validateBufferOfHeaders : Nat → Nat → Bytes → String → Option Int → Except BulkError (String × Option Int)
  | 0, _, _, lastHeaderHash, lastChainWork => .ok (lastHeaderHash, lastChainWork)
  | count + 1, i, buffer, lastHeaderHash, lastChainWork =>
    let header := buffer.take 80
    if header.length < 80 then
      .error (.invalidParameter "buffer" s!"multiple of 80 bytes long. header {i} missing bytes for header at offset {i * 80} in buffer of length {i * 80 + buffer.length}")
    else
      let h := deserializeBaseBlockHeader header
      if lastHeaderHash ≠ hashPrev header then
        .error (.error s!"header {i} invalid previousHash {lastHeaderHash} vs {hashPrev header}")
      else
        let headerHash := world.blockHash header
        match dirtyHashes.lookup headerHash with
        | some reason => .error (.error s!"Not adding a header with a dirty hash: {reason}")
        | none => validateBufferOfHeaders count (i + 1) (buffer.drop 80) headerHash
            (lastChainWork.map fun work => addWork work (convertBitsToWork h.bits))

def validateGenesisHeader (buffer : Bytes) (chain : Option Chain) : Except BulkError Unit :=
  let header := buffer.take 80
  let h := deserializeBaseBlockHeader header
  match chain, chain.bind genesisHeader with
  | some chain, some gh =>
    if h = gh.toBaseBlockHeader ∧ gh.height = 0 ∧ world.blockHash header = gh.hash then .ok ()
    else .error (.invalidParameter "buffer" s!"genesis header for chain {chain.text}")
  | _, _ => .error (.error "genesisHeader does not support 'mock' chain. Mock chain generates its own genesis block.")

def isKnownValidBulkHeaderFile (bfd : BulkFileData) : Bool :=
  match world.validBulkHeaderFiles.reverse.find? fun bf => bf.fileHash = some bfd.fileHash with
  | none => false
  | some bf => bfd.fileHash ≠ "" && bf.firstHeight == bfd.firstHeight && bf.count == bfd.count &&
      bf.prevChainWork == bfd.prevChainWork && bf.prevHash == bfd.prevHash && bf.lastChainWork == bfd.lastChainWork &&
      bf.lastHash == bfd.lastHash && bf.chain == bfd.chain

namespace BulkFileDataManager

def prevHashAt (manager : BulkFileDataManager) (height : Nat) : String :=
  ((if 0 < height then manager.getBfdForHeight (height - 1) else none).bind (·.lastHash)).getD zeros

def prevChainWorkAt (manager : BulkFileDataManager) (height : Nat) : Option Int :=
  match if 0 < height then manager.getBfdForHeight (height - 1) else none with
  | some pbf => pbf.lastChainWork
  | none => some 0

end BulkFileDataManager

def validateBfdHeaders (manager : BulkFileDataManager) (bfd : BulkFileData) (data : Bytes) : Except BulkError BulkFileData := do
  let prevHash := manager.prevHashAt bfd.firstHeight
  let prevChainWork := manager.prevChainWorkAt bfd.firstHeight
  let (lastHeaderHash, lastChainWork) ← validateBufferOfHeaders world (data.length / 80) 0 data prevHash prevChainWork
  if (truthyText bfd.lastHash).any (· ≠ lastHeaderHash) then
    throw (.invalidParameter "file.lastHash" s!"expected {bfd.lastHash.getD zeros} but got {lastHeaderHash}")
  if bfd.lastChainWork.isSome && bfd.lastChainWork ≠ lastChainWork then
    throw (.invalidParameter "file.lastChainWork" s!"expected {workText bfd.lastChainWork} but got {workText lastChainWork}")
  if bfd.firstHeight = 0 then validateGenesisHeader world data bfd.chain
  pure { bfd with lastHash := some lastHeaderHash, lastChainWork }

def validateBfdData (bfd : BulkFileData) (expectedFileHash : String) : BulkM BulkFileData := do
  let bfd ← ensureData world bfd
  match bfd.data with
  | none => throws .typeError
  | some data =>
    require (data.length = bfd.count * 80) (.invalidParameter "file.data"
      s!"bulk file {bfd.fileName} data length {data.length} does not match expected count {bfd.count}")
    let bfd := { bfd with fileHash := world.fileHash data }
    require (expectedFileHash = bfd.fileHash) (.invalidParameter "file.fileHash" s!"expected {expectedFileHash} but got {bfd.fileHash}")
    if isKnownValidBulkHeaderFile world bfd then pure bfd
    else
      let manager ← current
      match validateBfdHeaders world manager bfd data with
      | .error error => throws error
      | .ok bfd => pure bfd

def validateFileInfo (file : BulkHeaderFileInfo) : BulkM BulkFileData := do
  let manager ← current
  require (file.chain = some manager.chain) (.invalidParameter "chain" manager.chain.text)
  require (0 < file.count) (.invalidParameter "bf.count" s!"expected count to be greater than 0, but got {file.count}")
  require (file.count ≤ manager.maxPerFile ∨ file.fileName = "incremental")
    (.invalidParameter "count" s!"less than or equal to maxPerFile {manager.maxPerFile}")
  match truthyText file.fileHash with
  | none => throws (.invalidParameter "fileHash" "defined")
  | some fileHash =>
    require ((truthyText file.sourceUrl).isSome ∨ (truthyId file.fileId).isSome ∨ file.data.isSome)
      (.invalidParameter "data" "defined when sourceUrl and fileId are undefined")
    let bfd : BulkFileData := { file.toBulkFileFields with fileHash, mru := manager.now world }
    if bfd.validated then pure bfd
    else
      let bfd ← validateBfdData world bfd fileHash
      pure { bfd with validated := true }

def validateBfdForAdd (manager : BulkFileDataManager) (bfd : BulkFileData) : Except BulkError Unit :=
  match manager.getLastBfd with
  | none => if bfd.firstHeight = 0 then .ok () else .error (.invalidParameter "firstHeight" "0 for the first file")
  | some last =>
    if bfd.firstHeight ≠ last.firstHeight + last.count then
      .error (.invalidParameter "firstHeight" "the last file's firstHeight + count")
    else if some bfd.prevHash ≠ last.lastHash ∨ bfd.prevChainWork ≠ last.lastChainWork then
      .error (.invalidParameter "prevHash/prevChainWork" "the last file's lastHash/lastChainWork")
    else .ok ()

namespace BulkFileDataManager

def point (manager : BulkFileDataManager) (fileHash : String) (index : Option Nat) : BulkFileDataManager :=
  { manager with fileHashToIndex := fun hash => if hash = fileHash then index else manager.fileHashToIndex hash }

def push (manager : BulkFileDataManager) (bfd : BulkFileData) : BulkFileDataManager :=
  { manager with bfds := manager.bfds ++ [bfd] }

def put (manager : BulkFileDataManager) (index : Nat) (bfd : BulkFileData) : BulkFileDataManager :=
  { manager with bfds := manager.bfds.set index bfd }

def replaceBfdAtIndex (manager : BulkFileDataManager) (index : Nat) (oldBfd update : BulkFileData) : BulkFileDataManager :=
  ((manager.point oldBfd.fileHash none).put index update).point update.fileHash (some index)

def dropLastBulkFile (manager : BulkFileDataManager) (lbf : BulkFileData) : BulkFileDataManager :=
  let manager := manager.point lbf.fileHash none
  { manager with bfds := manager.bfds.dropLast }

end BulkFileDataManager

/-- One request to the storage. -/
def storage (request : Replies → Except BulkError α) : BulkM α := fun manager =>
  (request (world.replies manager.clock), { manager with clock := manager.clock + 1 })

def add (bfd : BulkFileData) : BulkM BulkHeaderFileInfo := do
  let manager ← current
  match validateBfdForAdd manager bfd with
  | .error error => throws error
  | .ok () =>
    let index := manager.bfds.length
    change fun manager => ((manager.push bfd).point bfd.fileHash (some index)).ensureMaxRetained
    let manager ← current
    let info := (manager.bfds[index]?.map (bfdToInfo · true)).getD (bfdToInfo bfd true)
    if manager.storage then
      let fileId ← storage world (·.insertBulkFile info)
      change fun manager => manager.put index { (manager.bfds[index]?.getD bfd) with fileId := some fileId }
      pure { info with fileId := some fileId }
    else pure info

def mergeIncremental (index : Nat) (lbf vbf : BulkFileData) (r : BulkFileDataManagerMergeResult) :
    BulkM BulkFileDataManagerMergeResult := do
  change fun manager => manager.put index
    { lbf with count := lbf.count + vbf.count, lastHash := vbf.lastHash, lastChainWork := vbf.lastChainWork }
  ensureDataAt world index
  let manager ← current
  match manager.bfds[index]? with
  | none => throws .typeError
  | some lbf =>
    match lbf.data, vbf.data with
    | some data, some more =>
      let newData := data ++ more
      let grown := { lbf with data := some newData, fileHash := world.fileHash newData, mru := manager.now world }
      change fun manager => ((manager.point lbf.fileHash none).put index grown).point grown.fileHash (some (manager.bfds.length - 1))
      let lbfInfo := bfdToInfo grown true
      match manager.storage, truthyId grown.fileId with
      | true, some fileId =>
        let _ ← storage world (·.updateBulkFile fileId lbfInfo)
        pure { r with updated := r.updated ++ [lbfInfo] }
      | _, _ => pure { r with updated := r.updated ++ [lbfInfo] }
    | _, _ => throws .typeError

structure UpdatePlan where
  update : BulkFileData
  index : Nat
  truncate : Option BulkFileData
  replaced : Option BulkFileData
  drop : Option BulkFileData

def resolveUpdatePlan (update : BulkFileData) (hbf : BulkFileData) : BulkM UpdatePlan := do
  let manager ← current
  let index := manager.bfds.length - 1
  match manager.bfds[index]? with
  | none => throws .typeError
  | some lbf =>
    if hbf.firstHeight = lbf.firstHeight then
      if isBdfIncremental update.toBulkFileFields then
        require (isBdfIncremental lbf.toBulkFileFields)
          (.invalidParameter "file" "an incremental file to update an existing incremental file")
        pure ⟨update, index, none, none, none⟩
      else if isBdfCdn lbf.toBulkFileFields then
        require (lbf.count < update.count)
          (.invalidParameter "update.count" s!"CDN update must have more headers. {update.count} <= {lbf.count}")
        pure ⟨update, index, none, none, none⟩
      else if update.count < lbf.count then
        ensureDataAt world index
        let manager ← current
        pure ⟨update, index, manager.bfds[index]?, none, none⟩
      else pure ⟨update, index, none, none, none⟩
    else
      match if 2 ≤ manager.bfds.length then manager.bfds[index - 1]? else none with
      | none => throws (.invalidParameter "file" "an update to last or second to last file")
      | some lbf2 =>
        require (hbf.firstHeight = lbf2.firstHeight) (.invalidParameter "file" "an update to last or second to last file")
        require (isBdfCdn update.toBulkFileFields ∧ isBdfCdn lbf2.toBulkFileFields ∧ lbf2.count < update.count)
          (.invalidParameter "file" "a CDN file update with more headers than the current CDN file")
        require (isBdfIncremental lbf.toBulkFileFields)
          (.invalidParameter "file" "a CDN file update followed by an incremental file")
        let update := if (truthyId update.fileId).isNone then { update with fileId := lbf2.fileId } else update
        if lbf2.count + lbf.count ≤ update.count then pure ⟨update, index - 1, none, none, some lbf⟩
        else
          ensureDataAt world index
          let manager ← current
          pure ⟨update, index - 1, manager.bfds[index]?, some lbf2, none⟩

def shiftWork (update truncate : BulkFileData) (replaced : Option BulkFileData) : BulkM BulkFileData := do
  let manager ← current
  let updateIndex := manager.fileHashToIndex update.fileHash
  let truncateIndex := manager.fileHashToIndex truncate.fileHash
  require (truncateIndex = none ∨ truncateIndex = updateIndex.map (· + 1))
    (.internal "shiftWork requires update to have replaced truncate or truncate to follow update")
  require (truncateIndex = none ∨ replaced.isSome)
    (.internal "shiftWork requires valid replaced when update hasn't replaced truncate")
  let count := update.count - (replaced.map (·.count)).getD 0
  let last := if replaced.isSome then manager.bfds.length - 1 else manager.bfds.length
  let cut := { truncate with
    prevHash := update.lastHash.getD "null", prevChainWork := update.lastChainWork,
    fileId := if replaced.isSome then truncate.fileId else none,
    count := truncate.count - count, firstHeight := truncate.firstHeight + count,
    data := truncate.data.map (·.drop (count * 80)) }
  change fun manager => if replaced.isSome then manager.put last cut else manager.push cut
  change fun manager => manager.point truncate.fileHash none
  match cut.data with
  | none => throws .typeError
  | some data =>
    let cut := { cut with fileHash := world.fileHash data }
    change fun manager => (manager.put last cut).point cut.fileHash (updateIndex.map (· + 1))
    pure cut

def storageOf (fileId : Option Nat) (request : Nat → Replies → Except BulkError Unit) : BulkM Unit :=
  match truthyId fileId with
  | some fileId => storage world (request fileId)
  | none => pure ()

/-- What is left of a file is written where the file was, or as a new one. -/
def persistTruncated (replaced truncated : Option BulkFileData) : BulkM (Option BulkFileData) :=
  match truncated, replaced with
  | none, _ => pure none
  | some truncate, some _ => do
    storage world (·.updateBulkFile (truncate.fileId.getD 0) (bfdToInfo truncate true))
    pure (some truncate)
  | some truncate, none => do
    let fileId ← storage world (·.insertBulkFile { bfdToInfo truncate true with fileId := none })
    change fun manager => manager.put (manager.bfds.length - 1) { truncate with fileId := some fileId }
    pure (some { truncate with fileId := some fileId })

def persistUpdate (plan : UpdatePlan) (truncated : Option BulkFileData) : BulkM (Option BulkFileData) := do
  let manager ← current
  if manager.storage then
    storageOf world plan.update.fileId fun fileId replies => replies.updateBulkFile fileId (bfdToInfo plan.update true)
    let truncated ← persistTruncated world plan.replaced truncated
    storageOf world (plan.drop.bind (·.fileId)) fun fileId replies => replies.deleteBulkFile fileId
    pure truncated
  else pure truncated

def recordUpdateResults (r : BulkFileDataManagerMergeResult) (plan : UpdatePlan) (truncated : Option BulkFileData) :
    BulkFileDataManagerMergeResult :=
  let truncateInfo := (truncated.map (bfdToInfo · true)).toList
  { r with
    updated := r.updated ++ [bfdToInfo plan.update true] ++ (if plan.replaced.isSome then truncateInfo else [])
    inserted := r.inserted ++ (if plan.replaced.isSome then [] else truncateInfo)
    dropped := r.dropped ++ (plan.drop.map (bfdToInfo · false)).toList }

def applyPlan (plan : UpdatePlan) (r : BulkFileDataManagerMergeResult) : BulkM BulkFileDataManagerMergeResult := do
  let manager ← current
  match manager.bfds[plan.index]? with
  | none => throws .typeError
  | some oldBfd =>
    change (·.replaceBfdAtIndex plan.index oldBfd plan.update)
    let truncated ← match plan.truncate with
      | some truncate => do
        let cut ← shiftWork world plan.update truncate plan.replaced
        pure (some cut)
      | none => pure none
    change fun manager => match plan.drop with
      | some lbf => manager.dropLastBulkFile lbf
      | none => manager
    let truncated ← persistUpdate world plan truncated
    change (·.ensureMaxRetained)
    pure (recordUpdateResults r plan truncated)

def update (update hbf : BulkFileData) (r : BulkFileDataManagerMergeResult) : BulkM BulkFileDataManagerMergeResult := do
  require (hbf.firstHeight = update.firstHeight ∧ hbf.prevChainWork = update.prevChainWork ∧ hbf.prevHash = update.prevHash)
    (.invalidParameter "file" "an existing file by height, prevChainWork and prevHash")
  require (isBdfCdn update.toBulkFileFields = isBdfCdn hbf.toBulkFileFields → hbf.count < update.count)
    (.invalidParameter "file.count" s!"greater than the current count {hbf.count}")
  let plan ← resolveUpdatePlan world update hbf
  applyPlan world plan r

def unchanged (hbf : BulkFileData) (file : BulkHeaderFileInfo) : Bool :=
  some hbf.fileHash == file.fileHash && hbf.count == file.count && hbf.lastHash == file.lastHash &&
    hbf.lastChainWork == file.lastChainWork

namespace BulkFileDataManager

/-- A file id that is given is always taken up. -/
def takeFileId (manager : BulkFileDataManager) (file : BulkHeaderFileInfo) : BulkFileDataManager :=
  match manager.bfdForHeight file.firstHeight, truthyId file.fileId with
  | some index, some _ => { manager with bfds := manager.bfds.modify index fun hbf => { hbf with fileId := file.fileId } }
  | _, _ => manager

end BulkFileDataManager

def mergeFile (file : BulkHeaderFileInfo) (r : BulkFileDataManagerMergeResult) : BulkM BulkFileDataManagerMergeResult := do
  change (·.takeFileId file)
  let manager ← current
  match manager.getBfdForHeight file.firstHeight with
  | some hbf =>
    if unchanged hbf file then pure { r with unchanged := r.unchanged ++ [bfdToInfo hbf false] }
    else
      let vbf ← validateFileInfo world file
      update world vbf hbf r
  | none =>
    let vbf ← validateFileInfo world file
    let manager ← current
    match manager.getLastBfd with
    | some lbf =>
      if isBdfIncremental vbf.toBulkFileFields && isBdfIncremental lbf.toBulkFileFields then
        mergeIncremental world (manager.bfds.length - 1) lbf vbf r
      else
        let added ← add world vbf
        pure { r with inserted := r.inserted ++ [added] }
    | none =>
      let added ← add world vbf
      pure { r with inserted := r.inserted ++ [added] }

def mergeFiles : List BulkHeaderFileInfo → BulkFileDataManagerMergeResult → BulkM BulkFileDataManagerMergeResult
  | [], r => pure r
  | file :: files, r => do
    let r ← mergeFile world file r
    mergeFiles files r

def merge (files : List BulkHeaderFileInfo) : BulkM BulkFileDataManagerMergeResult := mergeFiles world files ⟨[], [], [], []⟩

def trimAlreadyStoredHeaders : List BlockHeader → Nat → Option Int → List BlockHeader × Option Int
  | [], _, incrementalChainWork => ([], incrementalChainWork)
  | header :: headers, nextHeight, incrementalChainWork =>
    if header.height < nextHeight then
      trimAlreadyStoredHeaders headers nextHeight (incrementalChainWork.map fun work => subWork work (convertBitsToWork header.bits))
    else (header :: headers, incrementalChainWork)

def computeChainWorkFromHeaders : List BlockHeader → Nat → String → Int → Except BulkError Int
  | [], _, _, lastChainWork => .ok lastChainWork
  | h :: headers, nextHeight, lastHash, lastChainWork =>
    if h.height ≠ nextHeight ∨ h.previousHash ≠ lastHash then
      .error (.invalidParameter "headers" s!"an extension of existing bulk headers, header with height {h.height} is non-sequential")
    else computeChainWorkFromHeaders headers (h.height + 1) h.hash (addWork lastChainWork (convertBitsToWork h.bits))

def incrementalFile (chain : Chain) (newBulkHeaders : List BlockHeader) (incrementalChainWork : Option Int) (lbf : BulkFileData) :
    Except BulkError BulkHeaderFileInfo :=
  match newBulkHeaders.head?, newBulkHeaders.getLast?, truthyText lbf.lastHash with
  | some first, some last, some lastHash => do
    let lbfWork := lbf.lastChainWork.getD 0
    let lastChainWork ← match incrementalChainWork with
      | some work => pure (addWork work lbfWork)
      | none => computeChainWorkFromHeaders newBulkHeaders (lbf.firstHeight + lbf.count) lastHash lbfWork
    match serializeBaseBlockHeaders newBulkHeaders with
    | none => throw .rangeError
    | some data =>
      pure
        { fileId := none, chain := some chain, sourceUrl := none, fileName := "incremental", firstHeight := first.height
          count := newBulkHeaders.length, prevChainWork := lbf.lastChainWork, lastChainWork := some lastChainWork
          prevHash := lastHash, lastHash := some last.hash, fileHash := some (world.fileHash data), data := some data
          validated := false }
  | _, _, _ => .error (.internal s!"lastHash is not defined for the last bulk file {lbf.fileName}")

def mergeIncrementalBlockHeaders (newBulkHeaders : List BlockHeader) (incrementalChainWork : Option Int) : BulkM Unit := do
  let manager ← current
  let nextHeight := (manager.getLastBfd.map fun lbf => lbf.firstHeight + lbf.count).getD 0
  let (newBulkHeaders, incrementalChainWork) := trimAlreadyStoredHeaders newBulkHeaders nextHeight incrementalChainWork
  match newBulkHeaders.head?, manager.getLastBfd with
  | none, _ => pure ()
  | some _, none => throws (.invalidParameter "newBulkHeaders" "an extension of existing bulk headers")
  | some first, some lbf =>
    require (nextHeight = first.height) (.invalidParameter "newBulkHeaders" "an extension of existing bulk headers")
    match incrementalFile world manager.chain newBulkHeaders incrementalChainWork lbf with
    | .error error => throws error
    | .ok bf =>
      let _ ← merge world [bf]
      pure ()

/-- From `height` on, the longest file that starts there, then the next. -/
def selectBulkHeaderFiles (files : List BulkHeaderFileInfo) (chain : Chain) (maxPerFile : Nat) : Nat → Nat → List BulkHeaderFileInfo
  | 0, _ => []
  | fuel + 1, height =>
    match files.filter fun f => f.firstHeight == height && f.count ≤ maxPerFile && f.chain == some chain with
    | [] => []
    | first :: others =>
      let choice := others.foldl (fun a b => if a.count > b.count then a else b) first
      choice :: selectBulkHeaderFiles files chain maxPerFile fuel (height + choice.count)

def create (chain : Chain) (maxPerFile : Nat) (maxRetained : Option Nat) (fetch : Bool) (fromKnownSourceUrl : Option String) :
    BulkFileDataManager :=
  let empty : BulkFileDataManager := ⟨chain, maxPerFile, maxRetained, fetch, false, [], fun _ => none, 0⟩
  match truthyText fromKnownSourceUrl with
  | none => empty
  | some url =>
    let filtered := world.validBulkHeaderFiles.filter fun f => f.sourceUrl == some url
    let files := selectBulkHeaderFiles filtered chain maxPerFile (filtered.length + 1) 0
    -- A file that cannot be added is a rejection that nobody waits for.
    files.foldl (fun manager file =>
      (add world { file.toBulkFileFields with fileHash := file.fileHash.getD "null", mru := manager.now world } manager).2) empty

end WalletToolbox.Chaintracks.Bulk

import WalletToolbox.Chaintracks.ChaintracksStorageBase
import WalletToolbox.Chaintracks.BlockHeaderUtilities
import WalletToolbox.Language.Text

/-! The queue of live headers. The parent of a header that storage cannot link is asked
for by its hash and inserted first. -/

namespace WalletToolbox.Chaintracks

def uintMax : Nat := 0xffffffff

def blockHash (doubleSha256BE : Bytes → Bytes) (header : BaseBlockHeader) : Except String String :=
  match serializeBaseBlockHeader header with
  | none => .error "Invalid hex string"
  | some bytes => if bytes.length ≠ 80 then .error "Block header must be 80 bytes long." else .ok (asString (doubleSha256BE bytes))

/-- Types, integers and the names of properties are checked by the types here. -/
def validateHeaderFormat (doubleSha256BE : Bytes → Bytes) (header : BlockHeader) : Except String Unit := do
  if header.version > uintMax then throw "Header version must be between 0 and 4294967295."
  if 2 * header.height > uintMax then throw "Header version must be between 0 and 2147483647.5."
  if Text.length header.previousHash ≠ 64 then throw "Header previousHash must be 32 hex bytes."
  if Text.length header.merkleRoot ≠ 64 then throw "Header merkleRoot must be 32 hex bytes."
  if header.time > uintMax then throw "Header time must be between 0 and 4294967295."
  if header.bits > uintMax then throw "Header bits must be between 0 and 4294967295."
  if header.nonce > uintMax then throw "Header nonce must be between 0 and 4294967295."
  if Text.length header.hash ≠ 64 then throw "Header hash must be 32 hex bytes."
  if header.hash ≠ (← blockHash doubleSha256BE header.toBaseBlockHeader) then throw "Header hash is invalid."

def validateAgainstDirtyHashes (blockHash : String) : Except String Unit :=
  match dirtyHashes.lookup blockHash with
  | some reason => .error s!"Not adding a header with a dirty hash: {reason}"
  | none => .ok ()

inductive AddHeaderError where
  | message (text : String)
  | storage (err : ChaintracksError)
deriving DecidableEq, Repr

abbrev LiveIngestor := List BlockHeader

def LiveIngestor.getHeaderByHash (live : LiveIngestor) (hash : String) : Option BlockHeader := live.find? fun header => header.hash = hash

/-- What the queue is processed with. -/
structure ChaintracksBase (Data : Type) where
  insertHeader : BlockHeader → Data → Except ChaintracksError InsertHeaderResult × Data
  liveIngestors : List LiveIngestor
  addLiveRecursionLimit : Nat
  doubleSha256BE : Bytes → Bytes

structure LiveHeaderQueue (Data : Type) where
  storage : Data
  liveHeaders : List BlockHeader
deriving DecidableEq

structure LiveHeaderResult where
  needSyncCheck : Bool
  dupe : Bool
  added : Bool
deriving DecidableEq, Repr

def invalidInsertHeaderResult (ihr : InsertHeaderResult) : Bool := ihr.noActiveAncestor || ihr.noTip || ihr.badPrev

namespace ChaintracksBase

variable {Data : Type} (tracks : ChaintracksBase Data)

def getMissingBlockHeader (hash : String) : Option BlockHeader := tracks.liveIngestors.findSome? fun live => live.getHeaderByHash hash

/-- Listeners are notified of the result, and what they throw is ignored. -/
def addLiveHeader (header : BlockHeader) (storage : Data) : Except AddHeaderError InsertHeaderResult × Data :=
  match validateHeaderFormat tracks.doubleSha256BE header with
  | .error text => (.error (.message text), storage)
  | .ok () =>
    match validateAgainstDirtyHashes header.hash with
    | .error text => (.error (.message text), storage)
    | .ok () =>
      match tracks.insertHeader header storage with
      | (.error err, changed) => (.error (.storage err), changed)
      | (.ok ihr, changed) => (.ok ihr, changed)

/-- The loop, with the recursions it has left. -/
def processOneLiveHeader : Nat → BlockHeader → LiveHeaderQueue Data → Except AddHeaderError LiveHeaderResult × LiveHeaderQueue Data
  | recursions, header, queue =>
    match tracks.addLiveHeader header queue.storage with
    | (.error err, storage) => (.error err, { queue with storage })
    | (.ok ihr, storage) =>
      if invalidInsertHeaderResult ihr then (.ok ⟨true, false, false⟩, { queue with storage })
      else if ihr.noPrev then
        match recursions with
        | 0 => (.ok ⟨true, false, false⟩, { queue with storage })
        | recursions + 1 =>
          match tracks.getMissingBlockHeader header.previousHash with
          | none => (.ok ⟨true, false, false⟩, { queue with storage })
          | some prevHeader => processOneLiveHeader recursions prevHeader ⟨storage, header :: queue.liveHeaders⟩
      else (.ok ⟨false, ihr.dupe, ihr.added⟩, { queue with storage })

def processNext (queue : LiveHeaderQueue Data) : LiveHeaderQueue Data :=
  match queue.liveHeaders with
  | [] => queue
  | liveHeader :: liveHeaders => (tracks.processOneLiveHeader tracks.addLiveRecursionLimit liveHeader { queue with liveHeaders }).2

def processed (queue : LiveHeaderQueue Data) (calls : Nat) : LiveHeaderQueue Data := tracks.processNext^[calls] queue

end ChaintracksBase

end WalletToolbox.Chaintracks

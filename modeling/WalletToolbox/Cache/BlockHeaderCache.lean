import Mathlib.Logic.Function.Basic
import WalletToolbox.Chaintracks.LiveHeaders
import WalletToolbox.Effects.EventRuns
import WalletToolbox.Language.Text

/-! The cache of block headers and the two methods that fill it. A header is held under its
height and under its hash. Each key expires by itself; the cache that reads an expired key
drops it and tells the manager, which drops the other. -/

namespace WalletToolbox
open Chaintracks

inductive HeaderKey where
  | height (height : Nat)
  | hash (hash : String)
deriving DecidableEq, Repr

structure BlockHeaderCache where
  data : HeaderKey → Option BlockHeader := fun _ => none
  headerHashes : List String := []
  maxEntries : Nat := 1000

namespace BlockHeaderCache

def del (key : HeaderKey) (cache : BlockHeaderCache) : BlockHeaderCache := { cache with data := Function.update cache.data key none }

def put (key : HeaderKey) (header : BlockHeader) (cache : BlockHeaderCache) : BlockHeaderCache :=
  { cache with data := Function.update cache.data key (some header) }

def deleteHash (hash : String) (cache : BlockHeaderCache) : BlockHeaderCache :=
  { cache with headerHashes := cache.headerHashes.filter (· ≠ hash) }

/-- `onExpired` -/
def removeHeaderIndexes (key : HeaderKey) (header : BlockHeader) (cache : BlockHeaderCache) : BlockHeaderCache :=
  match key with
  | .height _ => deleteHash header.hash (del (.hash header.hash) cache)
  | .hash _ => deleteHash header.hash (del (.height header.height) cache)

def get (expired : HeaderKey → Bool) (key : HeaderKey) (cache : BlockHeaderCache) : Option BlockHeader × BlockHeaderCache :=
  match cache.data key with
  | none => (none, cache)
  | some header => if expired key then (none, removeHeaderIndexes key header (cache.del key)) else (some header, cache)

def invalidateHash (expired : HeaderKey → Bool) (hash : String) (cache : BlockHeaderCache) : BlockHeaderCache :=
  let (header, read) := cache.get expired (.hash hash)
  let dropped := deleteHash hash (read.del (.hash hash))
  match header with
  | some header => dropped.del (.height header.height)
  | none => dropped

/-- The `while` of `evictOldHeaders`: each round takes a hash off. -/
def evictRounds (expired : HeaderKey → Bool) : Nat → BlockHeaderCache → BlockHeaderCache
  | 0, cache => cache
  | rounds + 1, cache =>
    match cache.headerHashes with
    | oldHash :: _ =>
      if cache.headerHashes.length > cache.maxEntries then evictRounds expired rounds (cache.invalidateHash expired oldHash) else cache
    | [] => cache

def evictOldHeaders (expired : HeaderKey → Bool) (cache : BlockHeaderCache) : BlockHeaderCache :=
  evictRounds expired cache.headerHashes.length cache

def dropAtHeight (expired : HeaderKey → Bool) (header : BlockHeader) (cache : BlockHeaderCache) : BlockHeaderCache :=
  let (previousAtHeight, read) := cache.get expired (.height header.height)
  match previousAtHeight with
  | some previous => if previous.hash ≠ header.hash then deleteHash previous.hash (read.del (.hash previous.hash)) else read
  | none => read

def dropAtHash (expired : HeaderKey → Bool) (header : BlockHeader) (cache : BlockHeaderCache) : BlockHeaderCache :=
  let (previousAtHash, read) := cache.get expired (.hash header.hash)
  match previousAtHash with
  | some previous => if previous.height ≠ header.height then read.del (.height previous.height) else read
  | none => read

def place (header : BlockHeader) (cache : BlockHeaderCache) : BlockHeaderCache :=
  let listed := { cache with headerHashes := (deleteHash header.hash cache).headerHashes ++ [header.hash] }
  (listed.put (.height header.height) header).put (.hash header.hash) header

def set (expired : HeaderKey → Bool) (header : BlockHeader) (cache : BlockHeaderCache) : BlockHeaderCache :=
  evictOldHeaders expired (place header (dropAtHash expired header (dropAtHeight expired header cache)))

def dropFrom (expired : HeaderKey → Bool) (height : Nat) (cache : BlockHeaderCache) (hash : String) : BlockHeaderCache :=
  let (header, read) := cache.get expired (.hash hash)
  match header with
  | some header => if header.height ≥ height then read.invalidateHash expired hash else read
  | none => read

def invalidateFromHeight (expired : HeaderKey → Bool) (height : Nat) (cache : BlockHeaderCache) : BlockHeaderCache :=
  cache.headerHashes.foldl (dropFrom expired height) cache

def clear (cache : BlockHeaderCache) : BlockHeaderCache := { maxEntries := cache.maxEntries }

end BlockHeaderCache

inductive ChainNotice where
  | blockMined (header : Option BlockHeader) (blockHeight : Nat)
  | reorg (depth : Option Nat) (oldTip : Option BlockHeader) (deactivatedHeaders : List BlockHeader)
deriving DecidableEq, Repr

namespace BlockHeaderCache

def onBlockMined (expired : HeaderKey → Bool) (header : Option BlockHeader) (blockHeight : Nat) (cache : BlockHeaderCache) : BlockHeaderCache :=
  match header with
  | some header => (cache.invalidateFromHeight expired header.height).set expired header
  | none => cache.invalidateFromHeight expired blockHeight

def onReorg (expired : HeaderKey → Bool) (depth : Option Nat) (oldTip : Option BlockHeader) (deactivatedHeaders : List BlockHeader)
    (cache : BlockHeaderCache) : BlockHeaderCache :=
  if deactivatedHeaders ≠ [] then deactivatedHeaders.foldl (fun cache header => cache.invalidateHash expired header.hash) cache
  else
    match oldTip, depth with
    | some oldTip, some depth => cache.invalidateFromHeight expired (oldTip.height + 1 - depth)
    | _, _ => cache.clear

def handle (expired : HeaderKey → Bool) (notice : ChainNotice) (cache : BlockHeaderCache) : BlockHeaderCache :=
  match notice with
  | .blockMined header blockHeight => cache.onBlockMined expired header blockHeight
  | .reorg depth oldTip deactivatedHeaders => cache.onReorg expired depth oldTip deactivatedHeaders

end BlockHeaderCache

/-- The notice tells of the change from one active chain to the next: nothing changes below the
mined block or the fork, or what is no longer active is listed. -/
def ChainNotice.Tells (before after : List BlockHeader) : ChainNotice → Prop
  | .blockMined (some header) _ => after[header.height]? = some header ∧ after.take header.height = before.take header.height
  | .blockMined none blockHeight => after.take blockHeight = before.take blockHeight
  | .reorg _ _ (first :: rest) =>
    ∀ header ∈ before, after[header.height]? = some header ∨ header.hash ∈ (first :: rest).map (·.hash)
  | .reorg (some depth) (some oldTip) [] => after.take (oldTip.height + 1 - depth) = before.take (oldTip.height + 1 - depth)
  | .reorg _ _ [] => True

instance (before after : List BlockHeader) : (notice : ChainNotice) → Decidable (notice.Tells before after)
  | .blockMined (some _) _ => inferInstanceAs (Decidable (_ ∧ _))
  | .blockMined none _ => inferInstanceAs (Decidable (_ = _))
  | .reorg _ _ (_ :: _) => inferInstanceAs (Decidable (∀ header ∈ before, _ ∨ _))
  | .reorg (some _) (some _) [] => inferInstanceAs (Decidable (_ = _))
  | .reorg none (some _) [] | .reorg (some _) none [] | .reorg none none [] => inferInstanceAs (Decidable True)

inductive HeaderQuery where
  | height (height : Nat)
  | hash (hash : String)
deriving DecidableEq, Repr

inductive HeaderPhase where
  | asked (retry : Nat)
  /-- The second service, for a hash that the chain tracker does not know. -/
  | askedElsewhere
  | answered (header : BlockHeader)
  | returned (header : BlockHeader)
  | rejected
deriving DecidableEq, Repr

structure HeaderRequest where
  query : HeaderQuery
  /-- The last notice that had been handled when the call was made. -/
  handled : Nat
  phase : HeaderPhase
deriving DecidableEq, Repr

/-- What a service replies: for a height the header that is active there, for a hash any
header of that hash. -/
inductive HeaderReply where
  | header (header : BlockHeader)
  | missing
  | connectionReset
  | threw
deriving DecidableEq, Repr

/-- The active chains one after the other, each after the first with its notice. -/
structure HeaderRun where
  cache : BlockHeaderCache
  chains : List (List BlockHeader)
  pending : List ChainNotice := []
  handled : Nat := 0
  requests : List HeaderRequest := []

inductive HeaderEvent where
  | getHeaderForHeight (height : Nat) (expired : HeaderKey → Bool)
  | hashToHeader (hash : String) (expired : HeaderKey → Bool)
  | replied (request : Nat) (reply : HeaderReply)
  | stored (request : Nat) (expired : HeaderKey → Bool)
  | chainChanged (chain : List BlockHeader) (notice : ChainNotice)
  | noticed (expired : HeaderKey → Bool)
  | expire (key : HeaderKey)

namespace HeaderRun

def active (run : HeaderRun) : List BlockHeader := run.chains.getLastD []

def call (run : HeaderRun) (query : HeaderQuery) (key : HeaderKey) (expired : HeaderKey → Bool) : HeaderRun :=
  let (cached, cache) := run.cache.get expired key
  let phase := match cached with
    | some header => HeaderPhase.returned header
    | none => .asked 0
  { run with cache, requests := run.requests ++ [⟨query, run.handled, phase⟩] }

def checked (query : HeaderQuery) (header : BlockHeader) : HeaderPhase :=
  let fits : Bool := match query with
    | .height height => header.height = height
    | .hash hash => Text.lowered header.hash = Text.lowered hash
  if fits then .answered header else .rejected

/-- What a reply of the chain tracker makes of a request; a connection that is reset is tried three times. -/
def answer (query : HeaderQuery) (retry : Nat) : HeaderReply → HeaderPhase
  | .header header => checked query header
  | .missing => match query with
    | .height _ => .rejected
    | .hash _ => .askedElsewhere
  | .connectionReset => if retry + 1 < 3 then .asked (retry + 1) else .rejected
  | .threw => .rejected

def answerElsewhere (query : HeaderQuery) : HeaderReply → HeaderPhase
  | .header header => checked query header
  | .missing | .connectionReset | .threw => .rejected

/-- Asked by height, the chain tracker gives the header that is active there. -/
def right (active : List BlockHeader) (query : HeaderQuery) (reply : HeaderReply) : Bool :=
  match query, reply with
  | .height height, .header header => active[height]? = some header
  | _, _ => true

def setPhase (run : HeaderRun) (number : Nat) (request : HeaderRequest) (phase : HeaderPhase) : HeaderRun :=
  { run with requests := run.requests.set number { request with phase } }

def step (run : HeaderRun) : HeaderEvent → Option HeaderRun
  | .getHeaderForHeight height expired => some (run.call (.height height) (.height height) expired)
  | .hashToHeader hash expired => some (run.call (.hash hash) (.hash hash) expired)
  | .replied number reply =>
    match run.requests[number]? with
    | some request =>
      match request.phase with
      | .asked retry =>
        if right run.active request.query reply then some (run.setPhase number request (answer request.query retry reply)) else none
      | .askedElsewhere => some (run.setPhase number request (answerElsewhere request.query reply))
      | .answered _ | .returned _ | .rejected => none
    | none => none
  | .stored number expired =>
    match run.requests[number]? with
    | some request =>
      match request.phase with
      | .answered header => some ({ run with cache := run.cache.set expired header }.setPhase number request (.returned header))
      | .asked _ | .askedElsewhere | .returned _ | .rejected => none
    | none => none
  | .chainChanged chain notice =>
    if notice.Tells run.active chain then some { run with chains := run.chains ++ [chain], pending := run.pending ++ [notice] } else none
  | .noticed expired =>
    match run.pending with
    | notice :: rest => some { run with cache := run.cache.handle expired notice, pending := rest, handled := run.handled + 1 }
    | [] => none
  | .expire key =>
    match run.cache.data key with
    | some header => some { run with cache := BlockHeaderCache.removeHeaderIndexes key header (run.cache.del key) }
    | none => none

end HeaderRun
end WalletToolbox

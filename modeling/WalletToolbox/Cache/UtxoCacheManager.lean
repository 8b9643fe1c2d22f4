import Mathlib.Logic.Function.Basic
import WalletToolbox.Effects.EventRuns

/-! The cache of the answers about unspent outputs. The LRU cache may find an entry stale
whenever it is read, and may give one up whenever another is added; it then tells the
manager, in the middle of the call. A load settles in two turns: what it loaded is cached
in the first, and it is no longer in flight in the second. -/

namespace WalletToolbox

inductive GetUtxoStatusOutputFormat where
  | hashLE | hashBE | script
deriving DecidableEq, Repr

def GetUtxoStatusOutputFormat.text : GetUtxoStatusOutputFormat → String
  | .hashLE => "hashLE"
  | .hashBE => "hashBE"
  | .script => "script"

structure UtxoCacheQuery where
  output : String
  outputFormat : Option GetUtxoStatusOutputFormat := none
  outpoint : String
deriving DecidableEq, Repr

structure GetUtxoStatusDetails where
  txid : String
  index : Nat
  height : Option Nat := none
deriving DecidableEq, Repr

structure GetUtxoStatusResult where
  name : String
  success : Bool
  isUtxo : Option Bool := none
  details : List GetUtxoStatusDetails := []
deriving DecidableEq, Repr

def isCacheableUtxoResult (result : GetUtxoStatusResult) : Bool := result.success && result.isUtxo.isSome

structure UtxoEntry where
  result : GetUtxoStatusResult
  since : Nat
deriving DecidableEq, Repr

structure UtxoCacheManager where
  cache : String → Option UtxoEntry := fun _ => none
  inFlight : String → Option Nat := fun _ => none
  outpointKeys : String → Option (List String) := fun _ => none
  generation : Nat := 0

namespace UtxoCacheManager

def makeKey (query : UtxoCacheQuery) : String :=
  (query.outputFormat.getD .hashLE).text ++ ":" ++ query.output ++ ":" ++ query.outpoint

def outpointOf (key : String) : String := String.ofList (key.toList.reverse.takeWhile (· ≠ ':')).reverse

def removeKeyFromOutpointMap (key : String) (manager : UtxoCacheManager) : UtxoCacheManager :=
  match manager.outpointKeys (outpointOf key) with
  | none => manager
  | some keys =>
    let rest := keys.filter (· ≠ key)
    { manager with outpointKeys := Function.update manager.outpointKeys (outpointOf key) (if rest = [] then none else some rest) }

def delete (manager : UtxoCacheManager) (key : String) : UtxoCacheManager :=
  match manager.cache key with
  | none => manager
  | some _ =>
    let disposed := removeKeyFromOutpointMap key manager
    { disposed with cache := Function.update disposed.cache key none }

def get (stale : String → Bool) (key : String) (manager : UtxoCacheManager) : Option UtxoEntry × UtxoCacheManager :=
  match manager.cache key with
  | none => (none, manager)
  | some entry => if stale key then (none, manager.delete key) else (some entry, manager)

/-- What is replaced is disposed of; an addition may be at the cost of a victim. -/
def put (victim : Option String) (key : String) (entry : UtxoEntry) (manager : UtxoCacheManager) : UtxoCacheManager :=
  let room :=
    match manager.cache key, victim with
    | some _, _ => removeKeyFromOutpointMap key manager
    | none, some other => manager.delete other
    | none, none => manager
  { room with cache := Function.update room.cache key (some entry) }

def set (victim : Option String) (query : UtxoCacheQuery) (result : GetUtxoStatusResult) (since : Nat) (manager : UtxoCacheManager) :
    UtxoCacheManager :=
  if isCacheableUtxoResult result then
    let stored := manager.put victim (makeKey query) ⟨result, since⟩
    let keys := (stored.outpointKeys query.outpoint).getD []
    { stored with
      outpointKeys := Function.update stored.outpointKeys query.outpoint
        (some (if makeKey query ∈ keys then keys else keys ++ [makeKey query])) }
  else manager

def forget (outpoint key : String) (manager : UtxoCacheManager) : UtxoCacheManager :=
  { manager with
    outpointKeys := Function.update manager.outpointKeys outpoint ((manager.outpointKeys outpoint).map fun keys => keys.filter (· ≠ key)) }

/-- The loop of `getUtxoStatus`. -/
def firstHeld (stale : String → Bool) (outpoint : String) : List String → UtxoCacheManager → Option UtxoEntry × UtxoCacheManager
  | [], manager => (none, { manager with outpointKeys := Function.update manager.outpointKeys outpoint none })
  | key :: rest, manager =>
    match manager.get stale key with
    | (some entry, read) => (some entry, read)
    | (none, read) => firstHeld stale outpoint rest (read.forget outpoint key)

def getUtxoStatus (stale : String → Bool) (outpoint : String) (manager : UtxoCacheManager) : Option UtxoEntry × UtxoCacheManager :=
  match manager.outpointKeys outpoint with
  | none => (none, manager)
  | some keys => firstHeld stale outpoint keys manager

def statusDetails (parseOutpoint : String → Option (String × Nat)) (outpoint : String) (isUtxo : Bool) (blockHeight : Option Nat) :
    List GetUtxoStatusDetails :=
  match isUtxo, parseOutpoint outpoint with
  | true, some (txid, index) => [{ txid, index, height := blockHeight }]
  | _, _ => []

def setUtxoStatus (parseOutpoint : String → Option (String × Nat)) (victim : Option String) (outpoint : String) (isUtxo : Bool)
    (blockHeight : Option Nat) (since : Nat) (manager : UtxoCacheManager) : UtxoCacheManager :=
  manager.set victim { output := outpoint, outpoint }
    { name := "UtxoCacheManager", success := true, isUtxo := some isUtxo
      details := statusDetails parseOutpoint outpoint isUtxo blockHeight } since

def dropOutpoint (outpoint : String) (manager : UtxoCacheManager) : UtxoCacheManager :=
  match manager.outpointKeys outpoint with
  | none => manager
  | some keys =>
    let dropped := keys.foldl delete manager
    { dropped with outpointKeys := Function.update dropped.outpointKeys outpoint none }

def nextGeneration (manager : UtxoCacheManager) : UtxoCacheManager := { manager with generation := manager.generation + 1 }

def invalidateOutpoint (manager : UtxoCacheManager) (outpoint : String) : UtxoCacheManager :=
  dropOutpoint outpoint manager.nextGeneration

def invalidateOutpoints (outpoints : List String) (manager : UtxoCacheManager) : UtxoCacheManager :=
  outpoints.foldl invalidateOutpoint manager

def clear (manager : UtxoCacheManager) : UtxoCacheManager := { generation := manager.generation + 1 }

def invalidateByBlock (outpoints : Option (List String)) (manager : UtxoCacheManager) : UtxoCacheManager :=
  match outpoints with
  | some outpoints => outpoints.foldl (fun manager outpoint => dropOutpoint outpoint manager) manager.nextGeneration
  | none => manager.clear

end UtxoCacheManager

structure UtxoLoad where
  query : UtxoCacheQuery
  generation : Nat
  begun : Nat
  outcome : Option (Option GetUtxoStatusResult) := none
  settled : Bool := false
deriving DecidableEq, Repr

inductive UtxoSource where
  | held (entry : UtxoEntry)
  | load (number : Nat)
deriving DecidableEq, Repr

structure UtxoCall where
  outpoint : String
  /-- When the outpoint had last been invalidated, before the call. -/
  invalidated : Nat
  source : UtxoSource
deriving DecidableEq, Repr

inductive UtxoCacheEvent where
  | getOrLoad (query : UtxoCacheQuery) (stale : String → Bool)
  | loaded (number : Nat) (result : GetUtxoStatusResult) (victim : Option String)
  | rejected (number : Nat)
  | settled (number : Nat)
  | set (query : UtxoCacheQuery) (result : GetUtxoStatusResult) (victim : Option String)
  | getUtxoStatus (outpoint : String) (stale : String → Bool)
  | setUtxoStatus (outpoint : String) (isUtxo : Bool) (blockHeight : Option Nat) (victim : Option String)
  | invalidateOutpoints (outpoints : List String)
  | invalidateByBlock (outpoints : Option (List String))
  | clear
  | evict (key : String)

structure UtxoCacheRun where
  parseOutpoint : String → Option (String × Nat)
  manager : UtxoCacheManager := {}
  loads : List UtxoLoad := []
  calls : List UtxoCall := []
  clock : Nat := 1
  invalidated : String → Nat := fun _ => 0

namespace UtxoCacheRun

def getOrLoad (run : UtxoCacheRun) (query : UtxoCacheQuery) (stale : String → Bool) : UtxoCacheRun :=
  let key := UtxoCacheManager.makeKey query
  let (cached, manager) := run.manager.get stale key
  let calledFor (source : UtxoSource) : List UtxoCall := run.calls ++ [⟨query.outpoint, run.invalidated query.outpoint, source⟩]
  match cached, manager.inFlight key with
  | some entry, _ => { run with manager, calls := calledFor (.held entry) }
  | none, some number => { run with manager, calls := calledFor (.load number) }
  | none, none =>
    { run with
      manager := { manager with inFlight := Function.update manager.inFlight key (some run.loads.length) }
      loads := run.loads ++ [{ query, generation := manager.generation, begun := run.clock }]
      calls := calledFor (.load run.loads.length) }

/-- The first turn of a load. A result is cached unless something was invalidated since it began. -/
def loaded (run : UtxoCacheRun) (number : Nat) (load : UtxoLoad) (result : GetUtxoStatusResult) (victim : Option String) : UtxoCacheRun :=
  { run with
    manager :=
      if isCacheableUtxoResult result = true ∧ load.generation = run.manager.generation then
        run.manager.set victim load.query result load.begun
      else run.manager
    loads := run.loads.set number { load with outcome := some (some result) } }

/-- The second turn of a load, whatever it came to. -/
def settle (run : UtxoCacheRun) (number : Nat) (load : UtxoLoad) : UtxoCacheRun :=
  { run with
    manager := { run.manager with inFlight := Function.update run.manager.inFlight (UtxoCacheManager.makeKey load.query) none }
    loads := run.loads.set number { load with settled := true } }

def getUtxoStatus (run : UtxoCacheRun) (outpoint : String) (stale : String → Bool) : UtxoCacheRun :=
  match run.manager.getUtxoStatus stale outpoint with
  | (some entry, manager) => { run with manager, calls := run.calls ++ [⟨outpoint, run.invalidated outpoint, .held entry⟩] }
  | (none, manager) => { run with manager }

def invalidate (run : UtxoCacheRun) (manager : UtxoCacheManager) (meant : String → Bool) : UtxoCacheRun :=
  { run with manager, invalidated := fun outpoint => if meant outpoint then run.clock else run.invalidated outpoint }

def act (run : UtxoCacheRun) : UtxoCacheEvent → Option UtxoCacheRun
  | .getOrLoad query stale => some (run.getOrLoad query stale)
  | .loaded number result victim =>
    match run.loads[number]? with
    | some load => if load.outcome = none then some (run.loaded number load result victim) else none
    | none => none
  | .rejected number =>
    match run.loads[number]? with
    | some load => if load.outcome = none then some { run with loads := run.loads.set number { load with outcome := some none } } else none
    | none => none
  | .settled number =>
    match run.loads[number]? with
    | some load => if load.outcome ≠ none ∧ load.settled = false then some (run.settle number load) else none
    | none => none
  | .set query result victim => some { run with manager := run.manager.set victim query result run.clock }
  | .getUtxoStatus outpoint stale => some (run.getUtxoStatus outpoint stale)
  | .setUtxoStatus outpoint isUtxo blockHeight victim =>
    some { run with manager := run.manager.setUtxoStatus run.parseOutpoint victim outpoint isUtxo blockHeight run.clock }
  | .invalidateOutpoints outpoints => some (run.invalidate (run.manager.invalidateOutpoints outpoints) (· ∈ outpoints))
  | .invalidateByBlock outpoints =>
    some (run.invalidate (run.manager.invalidateByBlock outpoints) fun outpoint => outpoints.all (outpoint ∈ ·))
  | .clear => some (run.invalidate run.manager.clear fun _ => true)
  | .evict key => some { run with manager := run.manager.delete key }

def step (run : UtxoCacheRun) (event : UtxoCacheEvent) : Option UtxoCacheRun :=
  (run.act event).map fun next => { next with clock := run.clock + 1 }

def returned (run : UtxoCacheRun) (call : UtxoCall) : Option (Nat × Option GetUtxoStatusResult) :=
  match call.source with
  | .held entry => some (entry.since, some entry.result)
  | .load number => (run.loads[number]?).bind fun load => if load.settled then load.outcome.map (load.begun, ·) else none

end UtxoCacheRun
end WalletToolbox

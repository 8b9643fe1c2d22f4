import Mathlib.Data.List.Sort
import Mathlib.Data.Nat.Bitwise

/-! Live block headers, their work, and the tables that hold them. A chain work is the
number its 32 byte hex string spells. -/

namespace WalletToolbox.Chaintracks

structure BaseBlockHeader where
  version : Nat
  previousHash : String
  merkleRoot : String
  time : Nat
  bits : Nat
  nonce : Nat
deriving DecidableEq, Repr

structure BlockHeader extends BaseBlockHeader where
  height : Nat
  hash : String
deriving DecidableEq, Repr

structure LiveBlockHeader extends BlockHeader where
  chainWork : Nat
  isChainTip : Bool
  isActive : Bool
  headerId : Nat
  previousHeaderId : Option Nat
deriving DecidableEq, Repr

def notn (width number : Nat) : Nat := number ^^^ (2 ^ width - 1)

def convertBitsToTarget (bits : Nat) : Nat :=
  let shift := bits / 2 ^ 24 % 256
  let data := bits % 2 ^ 23
  if shift ≤ 3 then data >>> (8 * (3 - shift)) else data <<< (8 * (shift - 3))

def convertBitsToWork (bits : Nat) : Nat :=
  let target := convertBitsToTarget bits
  notn 256 target / (target + 1) + 1

def addWork (work1 work2 : Nat) : Nat := work1 + work2

def isMoreWork (work1 work2 : Nat) : Bool := decide (work1 > work2)

theorem convertBitsToWork_pos (bits : Nat) : 0 < convertBitsToWork bits := Nat.succ_pos _

@[simp] theorem isMoreWork_iff (work1 work2 : Nat) : isMoreWork work1 work2 = true ↔ work2 < work1 := by simp [isMoreWork]

structure BulkFile where
  firstHeight : Nat
  count : Nat
  lastHash : String
  lastChainWork : Nat
deriving DecidableEq, Repr

structure InsertHeaderResult where
  added : Bool
  dupe : Bool
  noPrev : Bool
  badPrev : Bool
  noActiveAncestor : Bool
  isActiveTip : Bool
  reorgDepth : Int
  priorTip : Option LiveBlockHeader
  noTip : Bool
  deactivatedHeaders : List LiveBlockHeader
deriving DecidableEq, Repr

def InsertHeaderResult.none : InsertHeaderResult := ⟨false, false, false, false, false, false, 0, .none, false, []⟩

inductive ChaintracksError where
  /-- `WERR_INVALID_OPERATION('bulk headers must exist before first live header can be added')` -/
  | bulkHeadersMustExist
  | typeError
  | dataError
  /-- A walk over `previousHeaderId` goes in a circle and does not end. -/
  | endless
deriving DecidableEq, Repr

abbrev LiveTable := List LiveBlockHeader

namespace LiveTable

def byId (table : LiveTable) (id : Nat) : Option LiveBlockHeader := table.find? fun row => row.headerId = id

def byHash (table : LiveTable) (hash : String) : Option LiveBlockHeader := table.find? fun row => row.hash = hash

def tip (table : LiveTable) : Option LiveBlockHeader := table.find? fun row => row.isActive && row.isChainTip

def update (table : LiveTable) (id : Nat) (change : LiveBlockHeader → LiveBlockHeader) : LiveTable :=
  table.map fun row => if row.headerId = id then change row else row

/-- Replaces the row with the id of `header`, or adds it. -/
def put (table : LiveTable) (header : LiveBlockHeader) : LiveTable :=
  if (table.byId header.headerId).isSome then table.update header.headerId fun _ => header else table ++ [header]

end LiveTable

/-- What the storage engines do differently in an insert: how they follow
`previousHeaderId`, how they write a flag of a header they have read, and whether a
missing header to deactivate ends the loop or throws. -/
structure LiveEngine where
  previous : LiveTable → LiveBlockHeader → Except ChaintracksError (Option LiveBlockHeader)
  setActive : LiveTable → LiveBlockHeader → Bool → LiveTable
  clearChainTip : LiveTable → LiveBlockHeader → LiveTable
  nothingToDeactivate : Except ChaintracksError Unit

def walkLimit (header : LiveBlockHeader) : Nat := header.headerId + 1

namespace LiveEngine

def activeAncestor (engine : LiveEngine) (table : LiveTable) : Nat → LiveBlockHeader → Except ChaintracksError (Option LiveBlockHeader)
  | 0, _ => .error .endless
  | fuel + 1, header =>
    if header.isActive then .ok (some header)
    else
      match engine.previous table header with
      | .error err => .error err
      | .ok none => .ok none
      | .ok (some previousHeader) => engine.activeAncestor table fuel previousHeader

/-- Sets the active flag of the headers from `header` back to, and without, the one with
id `ancestor`. An exception leaves what has been set. -/
def setActiveBackTo (engine : LiveEngine) (active : Bool) (missing : Except ChaintracksError Unit) (ancestor : Nat) :
    Nat → Option LiveBlockHeader → LiveTable → Except ChaintracksError (List LiveBlockHeader) × LiveTable
  | _, none, table => (missing.map fun _ => [], table)
  | 0, some _, table => (.error .endless, table)
  | fuel + 1, some header, table =>
    if header.headerId = ancestor then (.ok [], table)
    else
      let changed := engine.setActive table header active
      match engine.previous changed header with
      | .error err => (.error err, changed)
      | .ok next =>
        let rest := engine.setActiveBackTo active missing ancestor fuel next changed
        (rest.1.map fun headers => header :: headers, rest.2)

/-- Deactivates the active chain down to the ancestor and activates the branch from
`oneBack` down to it, unless `oneBack` is the ancestor. -/
def reorganize (engine : LiveEngine) (oneBack activeAncestor : LiveBlockHeader) (table : LiveTable) :
    Except ChaintracksError (List LiveBlockHeader) × LiveTable :=
  if activeAncestor.headerId = oneBack.headerId then (.ok [], table)
  else
    let limit := (table.tip.map walkLimit).getD 0
    match engine.setActiveBackTo false engine.nothingToDeactivate activeAncestor.headerId limit table.tip table with
    | (.error err, changed) => (.error err, changed)
    | (.ok deactivated, changed) =>
      let activated := engine.setActiveBackTo true (.error .typeError) activeAncestor.headerId (walkLimit oneBack) (some oneBack) changed
      (activated.1.map fun _ => deactivated, activated.2)

def insertAfter (engine : LiveEngine) (oneBack priorTip newHeader : LiveBlockHeader) (table : LiveTable) :
    Except ChaintracksError InsertHeaderResult × LiveTable :=
  let result := { InsertHeaderResult.none with isActiveTip := newHeader.isActive, priorTip := some priorTip }
  let insert (table : LiveTable) := (if oneBack.isChainTip then engine.clearChainTip table oneBack else table) ++ [newHeader]
  if newHeader.isActive then
    match engine.activeAncestor table (walkLimit oneBack) oneBack with
    | .error err => (.error err, table)
    | .ok none => (.ok { result with noActiveAncestor := true }, table)
    | .ok (some activeAncestor) =>
      match engine.reorganize oneBack activeAncestor table with
      | (.error err, changed) => (.error err, changed)
      | (.ok deactivated, changed) =>
        let depth : Int := if oneBack.isActive && oneBack.isChainTip then 0
          else min (priorTip.height : Int) newHeader.height - activeAncestor.height
        (.ok { result with added := true, reorgDepth := depth, deactivatedHeaders := deactivated }, insert changed)
  else (.ok { result with added := true }, insert table)

end LiveEngine

def BlockHeader.following (header : BlockHeader) (headerId : Nat) (oneBack priorTip : LiveBlockHeader) : LiveBlockHeader :=
  let chainWork := addWork oneBack.chainWork (convertBitsToWork header.bits)
  let isActiveTip := isMoreWork chainWork priorTip.chainWork
  { header with headerId, previousHeaderId := some oneBack.headerId, chainWork, isChainTip := isActiveTip, isActive := isActiveTip }

def BlockHeader.first (header : BlockHeader) (headerId : Nat) (lbf : BulkFile) : LiveBlockHeader :=
  { header with
    headerId
    previousHeaderId := none
    chainWork := addWork lbf.lastChainWork (convertBitsToWork header.bits)
    isChainTip := true
    isActive := true }

def BlockHeader.extends (header : BlockHeader) (lbf : BulkFile) : Bool :=
  header.previousHash = lbf.lastHash && header.height = lbf.firstHeight + lbf.count

def LiveTable.priorTip (table : LiveTable) (oneBack : LiveBlockHeader) : Option LiveBlockHeader :=
  if oneBack.isActive && oneBack.isChainTip then some oneBack else table.tip

/-- A range of heights, empty when the maximum is below the minimum. -/
structure HeightRange where
  minHeight : Int
  maxHeight : Int
deriving DecidableEq, Repr

namespace HeightRange

def empty : HeightRange := ⟨0, -1⟩

def isEmpty (range : HeightRange) : Bool := decide (range.minHeight > range.maxHeight)

def contains (range : HeightRange) (height : Int) : Bool := decide (range.minHeight ≤ height) && decide (range.maxHeight ≥ height)

end HeightRange

end WalletToolbox.Chaintracks

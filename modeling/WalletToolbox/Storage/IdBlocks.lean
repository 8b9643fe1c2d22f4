import WalletToolbox.Storage.Database

/-! Ids handed out by several providers over one store. Each provider keeps blocks of ids
in memory, which it reserves by raising the counter of a table; a row is put when its
insert has an id. Providers come and go, and their inserts are interleaved at every await. -/

namespace WalletToolbox

inductive IdBlockRefill where
  | pending
  | reserved (last : Nat)
deriving DecidableEq, Repr

structure IdInstance where
  idBlocks : EntityTable → Option IdBlock
  idBlockRefills : EntityTable → Option IdBlockRefill

def IdInstance.opened : IdInstance := ⟨fun _ => none, fun _ => none⟩

structure InsertCall where
  owner : Nat
  table : EntityTable
  row : Row table
  allocated : Bool

def InsertCall.waits (call : InsertCall) : Bool := rowId call.table call.row = some 0

def InsertCall.withId (call : InsertCall) (id : Nat) : InsertCall := { call with row := setRowId call.table id call.row, allocated := true }

structure IdWorld where
  records : Records
  instances : Nat → Option IdInstance
  calls : Nat → Option InsertCall

def IdWorld.empty : IdWorld := ⟨∅, fun _ => none, fun _ => none⟩

def counterOf (records : Records) (table : EntityTable) : Nat := ((records.lookup (.counter table)).map Versioned.value).getD 0

def incrementNumber (table : EntityTable) (amount : Nat) (records : Records) : Nat × Records :=
  let next := counterOf records table + amount
  (next, records.insert (.counter table) (encode next (records.lookup (.counter table))))

inductive IdAction where
  | opens (owner : Nat)
  | drops (owner : Nat)
  | insert (call owner : Nat) (table : EntityTable) (row : Row table)
  | take (call : Nat)
  | refill (call : Nat)
  | increment (owner : Nat) (table : EntityTable)
  | refilled (owner : Nat) (table : EntityTable)
  | refillFails (owner : Nat) (table : EntityTable)
  | put (call : Nat)
  | rejects (call : Nat)

namespace IdWorld

def blockOf (world : IdWorld) (call : InsertCall) : Option IdBlock :=
  (world.instances call.owner).bind fun provider => (provider.idBlocks call.table).filter fun block => block.next ≤ block.last

def setInstance (world : IdWorld) (owner : Nat) (provider : Option IdInstance) : IdWorld :=
  { world with instances := Function.update world.instances owner provider }

def setCall (world : IdWorld) (call : Nat) (state : Option InsertCall) : IdWorld :=
  { world with calls := Function.update world.calls call state }

def setBlock (provider : IdInstance) (table : EntityTable) (block : Option IdBlock) : IdInstance :=
  { provider with idBlocks := Function.update provider.idBlocks table block }

def setRefill (provider : IdInstance) (table : EntityTable) (refill : Option IdBlockRefill) : IdInstance :=
  { provider with idBlockRefills := Function.update provider.idBlockRefills table refill }

def putRow (world : IdWorld) (table : EntityTable) (row : Row table) : IdWorld :=
  let key := StorageKey.entity table (rowKey table row)
  { world with records := world.records.insert key (encode row (world.records.lookup key)) }

/-- One action, where it can be taken. -/
def step : IdAction → IdWorld → Option IdWorld
  | .opens owner, world =>
    match world.instances owner with
    | none => some (world.setInstance owner (some .opened))
    | some _ => none
  | .drops owner, world =>
    some { world.setInstance owner none with calls := fun call => (world.calls call).filter fun state => state.owner ≠ owner }
  | .insert call owner table row, world =>
    match world.instances owner, world.calls call with
    | some _, none => some (world.setCall call (some ⟨owner, table, row, false⟩))
    | _, _ => none
  | .take call, world =>
    match world.calls call with
    | none => none
    | some state =>
      match world.instances state.owner, world.blockOf state with
      | some provider, some block =>
        if state.waits then
          some ((world.setInstance state.owner (some (setBlock provider state.table (some ⟨block.next + 1, block.last⟩)))).setCall call
            (some (state.withId block.next)))
        else none
      | _, _ => none
  | .refill call, world =>
    match world.calls call with
    | none => none
    | some state =>
      match world.instances state.owner, world.blockOf state with
      | some provider, none =>
        if state.waits ∧ provider.idBlockRefills state.table = none then
          some (world.setInstance state.owner (some (setRefill provider state.table (some .pending))))
        else none
      | _, _ => none
  | .increment owner table, world =>
    match world.instances owner with
    | none => none
    | some provider =>
      if provider.idBlockRefills table = some .pending then
        let (last, records) := incrementNumber table ROCKSDB_ID_BLOCK_SIZE world.records
        some ({ world with records }.setInstance owner (some (setRefill provider table (some (.reserved last)))))
      else none
  | .refilled owner table, world =>
    match world.instances owner with
    | none => none
    | some provider =>
      match provider.idBlockRefills table with
      | some (.reserved last) =>
        some (world.setInstance owner (some (setRefill (setBlock provider table (some ⟨last - ROCKSDB_ID_BLOCK_SIZE + 1, last⟩)) table none)))
      | _ => none
  | .refillFails owner table, world =>
    match world.instances owner with
    | none => none
    | some provider =>
      if provider.idBlockRefills table = some .pending then some (world.setInstance owner (some (setRefill provider table none))) else none
  | .put call, world =>
    match world.calls call with
    | none => none
    | some state =>
      if state.waits then none
      else some ((world.putRow state.table state.row).setCall call none)
  | .rejects call, world => some (world.setCall call none)

/-- The id an action hands out. -/
def handedBy (world : IdWorld) : IdAction → List (EntityTable × Nat)
  | .take call =>
    match world.calls call with
    | none => []
    | some state => ((world.blockOf state).map fun block => (state.table, block.next)).toList
  | _ => []

end IdWorld

end WalletToolbox

import WalletToolbox.Permissions.PermissionChecks

/-! The requests of `WalletPermissionsManager` that wait for the user. A request is kept
under its request ID with the callers that wait for it, and a decision settles these.
Everything the table does not hold itself (tokens, caches, manifests, prompts) is the world
outside it, a machine of its own. -/

namespace WalletToolbox
open Async

structure SpendingGrant where
  amount : Nat
  description : String
deriving DecidableEq, Repr

structure ProtocolGrant where
  protocolID : WalletProtocol
  counterparty : Option String
  description : String
deriving DecidableEq, Repr

structure BasketGrant where
  basket : String
  description : String
deriving DecidableEq, Repr

structure CertificateGrant where
  type : String
  fields : List String
  verifierPublicKey : String
  description : String
deriving DecidableEq, Repr

structure GroupedPermissions where
  description : Option String := none
  spendingAuthorization : Option SpendingGrant := none
  protocolPermissions : List ProtocolGrant := []
  basketAccess : List BasketGrant := []
  certificateAccess : List CertificateGrant := []
deriving DecidableEq, Repr

structure CounterpartyProtocol where
  protocolName : String
  description : Option String
deriving DecidableEq, Repr

structure CounterpartyPermissions where
  description : Option String
  protocols : List CounterpartyProtocol
deriving DecidableEq, Repr

structure Manifest where
  groupPermissions : Option GroupedPermissions
  counterpartyPermissions : Option CounterpartyPermissions
deriving DecidableEq, Repr

inductive RequestData where
  | single (request : PermissionRequest)
  | grouped (originator : String) (permissions : GroupedPermissions) (displayOriginator : Option String)
  | counterparty (originator counterparty : String) (permissions : CounterpartyPermissions) (displayOriginator : Option String)
deriving DecidableEq, Repr

/-- What a later request adds to the one it joins. -/
def RequestData.merge : RequestData → RequestData → RequestData
  | .grouped originator permissions display, .grouped _ added _ =>
    let protocols := added.protocolPermissions.foldl
      (fun known grant => if grant ∈ known then known else known ++ [grant]) permissions.protocolPermissions
    .grouped originator { permissions with protocolPermissions := protocols } display
  | .counterparty originator peer permissions display, .counterparty _ _ added _ =>
    let protocols := added.protocols.foldl
      (fun known grant => if known.any (·.protocolName = grant.protocolName) then known else known ++ [grant]) permissions.protocols
    .counterparty originator peer { permissions with protocols } display
  | existing, _ => existing

inductive RequestEvent where
  | protocol | basket | certificate | spending | grouped | counterparty
deriving DecidableEq, Repr

structure TokenItem where
  request : PermissionRequest
  expiry : Nat
  amount : Option Nat := none
deriving DecidableEq, Repr

structure RenewalItem where
  oldToken : PermissionToken
  item : TokenItem
deriving DecidableEq, Repr

/-- What the requests and the decisions await outside the table. -/
inductive FlowOp where
  | lookup (op : PermissionsOp)
  | fetchManifestPermissions (originator : String)
  | hasRequestedHandlers (event : RequestEvent)
  | isPactEstablished (cacheKey : String)
  | markPactEstablished (cacheKey : String)
  | callEvent (event : RequestEvent) (requestID : String)
  | createPermissionOnChain (item : TokenItem)
  | renewPermissionOnChain (oldToken : Option PermissionToken) (item : TokenItem)
  | createPermissionTokensBestEffort (items : List TokenItem)
  | renewPermissionTokensBestEffort (items : List RenewalItem)
  | markRecentGrant (key : String)
  | waitForAuthentication

@[reducible] def FlowOp.Reply : FlowOp → Type
  | .lookup op => op.Reply
  | .fetchManifestPermissions _ => Manifest
  | .hasRequestedHandlers _ | .isPactEstablished _ => Bool
  | .markPactEstablished _ | .callEvent _ _ | .markRecentGrant _ => Unit
  | .createPermissionOnChain _ | .renewPermissionOnChain _ _ | .waitForAuthentication => Except PermissionsError Unit
  | .createPermissionTokensBestEffort _ | .renewPermissionTokensBestEffort _ => List PermissionRequest

abbrev outsideRequests : Interface := ⟨FlowOp, FlowOp.Reply⟩

structure ActiveRequest where
  requestID : String
  request : RequestData
  pending : List Nat
deriving DecidableEq, Repr

/-- A request that was joined or made, with the caller that waits for it. -/
structure Joined where
  waiter : Nat
  created : Bool
deriving DecidableEq, Repr

structure FoundRequest where
  entry : Nat
  request : RequestData
deriving DecidableEq, Repr

structure FlowTurn where
  ticket : Nat
  hadPending : Bool
deriving DecidableEq, Repr

/-- The synchronous sections that touch the table, and the awaits between them. -/
inductive RequestsOp where
  /-- `isPiggybacking` and, if so, `piggybackOnExistingQueue` up to its await. -/
  | piggyback (key : String)
  /-- The same, or else `enqueueAndFireEvent` up to its first await. -/
  | enqueue (key : String) (request : RequestData)
  | joinOrCreate (key : String) (request : RequestData) (merges : Bool)
  | answer (waiter : Nat)
  | decide (requestID : String) (outcome : Except PermissionsError Bool)
  | find (requestID : String)
  /-- Settle the waiters of a request found before, and delete what is now under its ID. -/
  | finish (requestID : String) (entry : Nat) (outcome : Except PermissionsError Bool)
  | enterFlow (originator : String)
  | flowTurn (originator : String) (ticket : Nat)
  | leaveFlow (originator : String) (ticket : Nat)
  | outside (op : FlowOp)

@[reducible] def RequestsOp.Reply : RequestsOp → Type
  | .piggyback _ => Option Nat
  | .enqueue _ _ | .joinOrCreate _ _ _ => Joined
  | .answer _ => Except PermissionsError Bool
  | .decide _ _ | .find _ => Option FoundRequest
  | .finish _ _ _ | .flowTurn _ _ | .leaveFlow _ _ => Unit
  | .enterFlow _ => FlowTurn
  | .outside op => op.Reply

abbrev permissionRequests : Interface := ⟨RequestsOp, RequestsOp.Reply⟩

/-- Entries and waiters are numbered as they are made. An entry that is no longer active
is one the map no longer holds, but a decision still may. -/
structure RequestTable (W : Type) where
  activeRequests : String → Option Nat
  entries : List ActiveRequest
  answers : Nat → Option (Except PermissionsError Bool)
  waiters : Nat
  /-- The flows of each originator that have not released their gate. -/
  groupedPermissionFlowTail : String → List Nat
  tickets : Nat
  world : W

namespace RequestTable
variable {W : Type}

def new (world : W) : RequestTable W := ⟨fun _ => none, [], fun _ => none, 0, fun _ => [], 0, world⟩

variable (table : RequestTable W)

def active (key : String) : Option FoundRequest :=
  (table.activeRequests key).bind fun entry => table.entries[entry]?.map fun found => ⟨entry, found.request⟩

def pendingOf (entry : Nat) : List Nat := (table.entries[entry]?.map ActiveRequest.pending).getD []

def push (entry : Nat) : RequestTable W :=
  { table with
    entries := table.entries.modify entry fun found => { found with pending := found.pending ++ [table.waiters] }
    waiters := table.waiters + 1 }

def create (key : String) (request : RequestData) : RequestTable W :=
  { table with
    activeRequests := Function.update table.activeRequests key (some table.entries.length)
    entries := table.entries ++ [⟨key, request, [table.waiters]⟩]
    waiters := table.waiters + 1 }

def mergeInto (entry : Nat) (added : RequestData) : RequestTable W :=
  { table with entries := table.entries.modify entry fun found => { found with request := found.request.merge added } }

def settle (waiters : List Nat) (outcome : Except PermissionsError Bool) : RequestTable W :=
  { table with answers := fun waiter => (table.answers waiter).or (if waiter ∈ waiters then some outcome else none) }

def delete (key : String) : RequestTable W := { table with activeRequests := Function.update table.activeRequests key none }

def queueOf (key : String) : Option Nat := (table.activeRequests key).filter fun entry => table.pendingOf entry ≠ []

def piggyback (key : String) : Option Nat × RequestTable W :=
  match table.queueOf key with
  | none => (none, table)
  | some entry => (some table.waiters, table.push entry)

def enqueue (key : String) (request : RequestData) : Joined × RequestTable W :=
  match table.queueOf key with
  | none => (⟨table.waiters, true⟩, table.create key request)
  | some entry => (⟨table.waiters, false⟩, table.push entry)

def joinOrCreate (key : String) (request : RequestData) (merges : Bool) : Joined × RequestTable W :=
  match table.activeRequests key with
  | none => (⟨table.waiters, true⟩, table.create key request)
  | some entry =>
    (⟨table.waiters, false⟩, (if merges then table.mergeInto entry request else table).push entry)

def decide (requestID : String) (outcome : Except PermissionsError Bool) : Option FoundRequest × RequestTable W :=
  match table.active requestID with
  | none => (none, table)
  | some found => (some found, (table.settle (table.pendingOf found.entry) outcome).delete requestID)

def finish (requestID : String) (entry : Nat) (outcome : Except PermissionsError Bool) : RequestTable W :=
  (table.settle (table.pendingOf entry) outcome).delete requestID

def enterFlow (originator : String) : FlowTurn × RequestTable W :=
  let waiting := table.groupedPermissionFlowTail originator
  (⟨table.tickets, waiting ≠ []⟩,
    { table with
      groupedPermissionFlowTail := Function.update table.groupedPermissionFlowTail originator (waiting ++ [table.tickets])
      tickets := table.tickets + 1 })

def leaveFlow (originator : String) (ticket : Nat) : RequestTable W :=
  { table with
    groupedPermissionFlowTail := Function.update table.groupedPermissionFlowTail originator
      ((table.groupedPermissionFlowTail originator).erase ticket) }

def exec (outside : Machine outsideRequests W) : Machine permissionRequests (RequestTable W)
  | .piggyback key, table => table.piggyback key
  | .enqueue key request, table => table.enqueue key request
  | .joinOrCreate key request merges, table => table.joinOrCreate key request merges
  | .answer waiter, table => ((table.answers waiter).getD (.ok false), table)
  | .decide requestID outcome, table => table.decide requestID outcome
  | .find requestID, table => (table.active requestID, table)
  | .finish requestID entry outcome, table => ((), table.finish requestID entry outcome)
  | .enterFlow originator, table => table.enterFlow originator
  | .flowTurn _ _, table => ((), table)
  | .leaveFlow originator ticket, table => ((), table.leaveFlow originator ticket)
  | .outside op, table => ((outside op table.world).1, { table with world := (outside op table.world).2 })

/-- What a caller awaits has come: its answer, or its turn after all earlier flows. -/
def Ready (op : RequestsOp) : Prop :=
  match op with
  | .answer waiter => table.answers waiter ≠ none
  | .flowTurn originator ticket => (table.groupedPermissionFlowTail originator).head? = some ticket
  | _ => True

end RequestTable
end WalletToolbox

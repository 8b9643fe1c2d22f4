import WalletToolbox.Effects.EventRuns

/-! The providers of a service, and the calls that try one after the other. All calls of
a service advance one index. A call goes on, from one answer of a provider to the next,
without an interruption. -/

namespace WalletToolbox

variable {T : Type}

structure ServiceCollection (T : Type) where
  serviceName : String
  services : List (String × T) := []
  index : Option Nat := some 0

namespace ServiceCollection

def count (collection : ServiceCollection T) : Nat := collection.services.length

def names (collection : ServiceCollection T) : List String := collection.services.map Prod.fst

def add (collection : ServiceCollection T) (name : String) (service : T) : ServiceCollection T :=
  { collection with services := collection.services ++ [(name, service)] }

def remove (collection : ServiceCollection T) (name : String) : ServiceCollection T :=
  { collection with services := collection.services.filter fun provider => provider.1 ≠ name }

def serviceToCall (collection : ServiceCollection T) : Option (String × T) := collection.index.bind (collection.services[·]?)

def moveServiceToLast (collection : ServiceCollection T) (providerName : String) : ServiceCollection T :=
  match collection.services.findIdx? (·.1 = providerName) with
  | some index => { collection with services := collection.services.eraseIdx index ++ collection.services[index]?.toList }
  | none => collection

def next (collection : ServiceCollection T) : ServiceCollection T :=
  { collection with index := if collection.count = 0 then none else collection.index.map fun index => (index + 1) % collection.count }

end ServiceCollection

inductive FailoverMethod where
  | getMerklePath | getRawTx | getStatusForTxids | getUtxoStatus
deriving DecidableEq, Repr

/-- What a provider answers. `found` is a merkle path, a raw transaction that hashes to the
txid, or a status of success; `failed` is any other answer with an error, or a raw transaction
of another hash. -/
inductive ProviderReply where
  | found | nothing | failed | threw
deriving DecidableEq, Repr

inductive FailoverPhase where
  | calling (providerName : String)
  /-- Two seconds between two passes of `getUtxoStatus`, and after the last. -/
  | waiting
  | found
  | noResult
  | rejected
deriving DecidableEq, Repr

structure FailoverCall (T : Type) where
  method : FailoverMethod
  retry : Nat := 0
  tries : Nat := 0
  phase : FailoverPhase
  called : List String := []
  failed : List String := []
  present : List String
  left : ServiceCollection T

namespace FailoverCall

def loop (call : FailoverCall T) (collection : ServiceCollection T) : FailoverCall T :=
  if call.tries < collection.count then
    match collection.serviceToCall with
    | some (providerName, _) =>
      { call with phase := .calling providerName, called := call.called ++ [providerName], left := collection }
    | none => { call with phase := .rejected, left := collection }
  else { call with phase := if call.method = .getUtxoStatus then .waiting else .noResult, left := collection }

/-- `addServiceCallError` and `addServiceCallFailure` read the name at the index. A raw
transaction that is not found counts as an answer. -/
def recordThrows (call : FailoverCall T) (reply : ProviderReply) (collection : ServiceCollection T) : Bool :=
  collection.serviceToCall.isNone && !(call.method = .getRawTx && reply = .nothing)

/-- An answer is recorded, and the next provider is called if it settles nothing. -/
def reply (call : FailoverCall T) (providerName : String) (reply : ProviderReply) (collection : ServiceCollection T) :
    FailoverCall T × ServiceCollection T :=
  if reply = .found then ({ call with phase := .found }, collection)
  else if call.recordThrows reply collection then ({ call with phase := .rejected }, collection)
  else (({ call with tries := call.tries + 1, failed := call.failed ++ [providerName] }).loop collection.next, collection.next)

def waited (call : FailoverCall T) (collection : ServiceCollection T) : FailoverCall T :=
  if call.retry + 1 < 2 then ({ call with retry := call.retry + 1, tries := 0, called := [], failed := [] }).loop collection
  else { call with phase := .noResult }

def Settled (call : FailoverCall T) : Prop := call.phase = .found ∨ call.phase = .noResult ∨ call.phase = .rejected

instance (call : FailoverCall T) : Decidable call.Settled := inferInstanceAs (Decidable (_ ∨ _))

def beside (collection : ServiceCollection T) (call : FailoverCall T) : FailoverCall T :=
  if call.Settled then call else { call with present := call.present.filter (· ∈ collection.names) }

end FailoverCall

structure Failover (T : Type) where
  collection : ServiceCollection T
  calls : List (FailoverCall T) := []

inductive FailoverEvent (T : Type) where
  | call (method : FailoverMethod) (useNext : Bool)
  | reply (call : Nat) (reply : ProviderReply)
  | waited (call : Nat)
  | add (name : String) (service : T)
  | remove (name : String)
  | moveServiceToLast (providerName : String)

namespace Failover

def withCollection (failover : Failover T) (collection : ServiceCollection T) : Failover T :=
  { collection, calls := failover.calls.map (·.beside collection) }

def call (failover : Failover T) (method : FailoverMethod) (useNext : Bool) : Failover T :=
  let collection := if useNext then failover.collection.next else failover.collection
  let started : FailoverCall T := { method, phase := .waiting, present := collection.names, left := collection }
  { collection, calls := failover.calls ++ [started.loop collection] }

def step (failover : Failover T) : FailoverEvent T → Option (Failover T)
  | .call method useNext => some (failover.call method useNext)
  | .reply number reply =>
    match failover.calls[number]? with
    | some call =>
      match call.phase with
      | .calling providerName =>
        let (after, collection) := call.reply providerName reply failover.collection
        some { collection, calls := failover.calls.set number after }
      | _ => none
    | none => none
  | .waited number =>
    match failover.calls[number]? with
    | some call => if call.phase = .waiting then some { failover with calls := failover.calls.set number (call.waited failover.collection) } else none
    | none => none
  | .add name service => some (failover.withCollection (failover.collection.add name service))
  | .remove name => some (failover.withCollection (failover.collection.remove name))
  | .moveServiceToLast providerName => some (failover.withCollection (failover.collection.moveServiceToLast providerName))

end Failover
end WalletToolbox

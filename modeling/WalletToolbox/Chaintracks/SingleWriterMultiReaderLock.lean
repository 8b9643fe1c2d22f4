import Mathlib.Data.List.Basic

/-! `SingleWriterMultiReaderLock`. A waiter is released by resolving its promise and marks itself
active only when its continuation runs, behind the microtasks that are queued already; what
runs in between sees the lock without it. -/

namespace WalletToolbox

inductive LockAccess where
  | read | write
deriving DecidableEq, Repr

structure LockCaller where
  access : LockAccess
  id : Nat
deriving DecidableEq, Repr

structure SingleWriterMultiReaderLock where
  readers : Nat := 0
  writerActive : Bool := false
  readerQueue : List Nat := []
  writerQueue : List Nat := []
deriving DecidableEq, Repr

namespace SingleWriterMultiReaderLock
variable (lock : SingleWriterMultiReaderLock)

/-- The callers whose promises are resolved leave their queue. -/
def checkQueues : SingleWriterMultiReaderLock × List LockCaller :=
  if lock.writerActive || 0 < lock.readers then (lock, [])
  else
    match lock.writerQueue with
    | writer :: rest => ({ lock with writerQueue := rest }, [⟨.write, writer⟩])
    | [] => ({ lock with readerQueue := [] }, lock.readerQueue.map fun reader => ⟨.read, reader⟩)

def startsAtOnce : LockAccess → Bool
  | .read => !lock.writerActive && lock.writerQueue = []
  | .write => !lock.writerActive && lock.readers = 0

def enqueue : LockCaller → SingleWriterMultiReaderLock
  | ⟨.read, id⟩ => { lock with readerQueue := lock.readerQueue ++ [id] }
  | ⟨.write, id⟩ => { lock with writerQueue := lock.writerQueue ++ [id] }

def enter : LockAccess → SingleWriterMultiReaderLock
  | .read => { lock with readers := lock.readers + 1 }
  | .write => { lock with writerActive := true }

def leave : LockAccess → SingleWriterMultiReaderLock × List LockCaller
  | .read => checkQueues { lock with readers := lock.readers - 1 }
  | .write => checkQueues { lock with writerActive := false }

end SingleWriterMultiReaderLock

inductive Microtask where
  | resume (caller : LockCaller)
  | finish (caller : LockCaller)
deriving DecidableEq, Repr

/-- The calls of one lock. Of the microtasks, in the order in which they run, only those of the
lock's own calls are kept: all others may call it at any time. -/
structure LockRun where
  lock : SingleWriterMultiReaderLock := {}
  running : List LockCaller := []
  microtasks : List Microtask := []
  calls : Nat := 0
deriving DecidableEq, Repr

inductive LockEvent where
  | call (access : LockAccess)
  | settle (caller : LockCaller)
  | turn
deriving DecidableEq, Repr

namespace LockRun
variable (run : LockRun)

def call (access : LockAccess) : LockRun :=
  let caller : LockCaller := ⟨access, run.calls⟩
  if run.lock.startsAtOnce access then
    { run with lock := run.lock.enter access, running := run.running ++ [caller], calls := run.calls + 1 }
  else { run with lock := run.lock.enqueue caller, calls := run.calls + 1 }

def runTask (rest : List Microtask) : Microtask → LockRun
  | .resume caller => { run with lock := run.lock.enter caller.access, running := run.running ++ [caller], microtasks := rest }
  | .finish caller =>
    let (lock, woken) := run.lock.leave caller.access
    { run with lock, running := run.running.erase caller, microtasks := rest ++ woken.map .resume }

def step : LockEvent → Option LockRun
  | .call access => some (run.call access)
  | .settle caller =>
    if caller ∈ run.running ∧ .finish caller ∉ run.microtasks then some { run with microtasks := run.microtasks ++ [.finish caller] } else none
  | .turn =>
    match run.microtasks with
    | [] => none
    | task :: rest => some (run.runTask rest task)

def runs (run : LockRun) : List LockEvent → Option LockRun
  | [] => some run
  | event :: rest => (run.step event).bind fun next => next.runs rest

end LockRun
end WalletToolbox

import WalletToolbox.Async.Pool

/-! The access locks of `WalletStorageManager`. A lock is a queue of the `resolve`
functions of promises; who awaits the promise at its head may go on once it is
resolved. Promises are numbered. Whatever depends on the stores and on the callbacks is
an answer the manager is given. -/

namespace WalletToolbox
open Async

inductive LockQueue where
  | readerLocks | writerLocks | syncLocks | spLocks | actionWriterExclusiveLocks | actionWriterSharedLocks
deriving DecidableEq, Repr

structure LockManager where
  locks : LockQueue → List Nat
  actionWriterSharedCount : Nat
  resolved : Nat → Bool
  nextPromise : Nat
  isAvailable : Bool
  answers : Nat → Bool

def LockManager.new (isAvailable : Bool) (answers : Nat → Bool) : LockManager := ⟨fun _ => [], 0, fun _ => false, 0, isAvailable, answers⟩

/-- What the manager asks, and is told to hold or not. -/
inductive Question where
  | isAvailable
  | makeAvailable
  | verifyActive
  | isStorageProvider
  | concurrentActionWriter
  | callback
deriving DecidableEq, Repr

/-- The synchronous sections of the lock methods, and the awaits between them. -/
inductive LockOp where
  | ask (question : Question)
  | push (queue : LockQueue)
  | lock (queue : LockQueue) (promise : Nat)
  | getActionWriterSharedLock
  | countShared (promise : Nat)
  | releaseActionWriterSharedLock
  | release (queues : List LockQueue)

@[reducible] def LockOp.Reply : LockOp → Type
  | .ask _ => Bool
  | .push _ => Nat
  | .getActionWriterSharedLock => Option Nat
  | .lock _ _ | .countShared _ | .releaseActionWriterSharedLock | .release _ => Unit

abbrev lockManager : Interface := ⟨LockOp, LockOp.Reply⟩

namespace LockManager

def resolve (manager : LockManager) (promise : Nat) : LockManager :=
  { manager with resolved := Function.update manager.resolved promise true }

def setQueue (manager : LockManager) (queue : LockQueue) (entries : List Nat) : LockManager :=
  { manager with locks := Function.update manager.locks queue entries }

def enqueue (manager : LockManager) (queue : LockQueue) : LockManager :=
  { manager.setQueue queue (manager.locks queue ++ [manager.nextPromise]) with nextPromise := manager.nextPromise + 1 }

/-- The push of `getActiveLock` and of `getActionWriterExclusiveLock`: an entry that is
alone is resolved at once, that of the action writers only while nobody shares. -/
def push (manager : LockManager) (queue : LockQueue) : LockManager :=
  let pushed := manager.enqueue queue
  if (pushed.locks queue).length = 1 ∧ (queue = .actionWriterExclusiveLocks → manager.actionWriterSharedCount = 0) then
    pushed.resolve manager.nextPromise
  else pushed

/-- `queue[0]()` -/
def wakeHead (manager : LockManager) (queue : LockQueue) : LockManager :=
  match manager.locks queue with
  | [] => manager
  | head :: _ => manager.resolve head

def releaseActiveLock (manager : LockManager) (queue : LockQueue) : LockManager :=
  (manager.setQueue queue (manager.locks queue).tail).wakeHead queue

def releaseActionWriterExclusiveLock (manager : LockManager) : LockManager :=
  let shifted := manager.setQueue .actionWriterExclusiveLocks (manager.locks .actionWriterExclusiveLocks).tail
  if shifted.locks .actionWriterExclusiveLocks ≠ [] then
    if shifted.actionWriterSharedCount = 0 then shifted.wakeHead .actionWriterExclusiveLocks else shifted
  else
    (shifted.locks .actionWriterSharedLocks).foldl resolve (shifted.setQueue .actionWriterSharedLocks [])

def releaseQueue (manager : LockManager) (queue : LockQueue) : LockManager :=
  if queue = .actionWriterExclusiveLocks then manager.releaseActionWriterExclusiveLock else manager.releaseActiveLock queue

def getActionWriterSharedLock (manager : LockManager) : Option Nat × LockManager :=
  if manager.locks .actionWriterExclusiveLocks = [] then
    (none, { manager with actionWriterSharedCount := manager.actionWriterSharedCount + 1 })
  else (some manager.nextPromise, manager.enqueue .actionWriterSharedLocks)

def releaseActionWriterSharedLock (manager : LockManager) : LockManager :=
  let released := { manager with actionWriterSharedCount := manager.actionWriterSharedCount - 1 }
  if released.actionWriterSharedCount = 0 then released.wakeHead .actionWriterExclusiveLocks else released

def answer (manager : LockManager) : Bool × LockManager :=
  (manager.answers 0, { manager with answers := fun index => manager.answers (index + 1) })

def ask (manager : LockManager) (question : Question) : Bool × LockManager :=
  if manager.isAvailable ∧ question ∈ [.isAvailable, .verifyActive] then (true, manager) else manager.answer

def exec : Machine lockManager LockManager
  | .ask question, manager => manager.ask question
  | .push queue, manager => (manager.nextPromise, manager.push queue)
  | .lock _ _, manager => ((), manager)
  | .getActionWriterSharedLock, manager => manager.getActionWriterSharedLock
  | .countShared _, manager => ((), { manager with actionWriterSharedCount := manager.actionWriterSharedCount + 1 })
  | .releaseActionWriterSharedLock, manager => ((), manager.releaseActionWriterSharedLock)
  | .release queues, manager => ((), queues.foldl releaseQueue manager)

end LockManager

inductive RunAsError where
  | makeAvailable
  | callback
  | invalidOperation (message : String)
deriving DecidableEq, Repr

abbrev ManagerM := Program lockManager RunAsError

abbrev locking (op : LockOp) : ManagerM op.Reply := .await op .done

namespace WalletStorageManager

def ask (question : Question) : ManagerM Bool := locking (.ask question)

def getActiveLock (lockQueue : LockQueue) : ManagerM Unit := do
  if !(← ask .isAvailable) then
    if !(← ask .makeAvailable) then throw .makeAvailable
  let newLock ← locking (.push lockQueue)
  locking (.lock lockQueue newLock)

def getActionWriterSharedLock : ManagerM Unit := do
  match ← locking .getActionWriterSharedLock with
  | none => return
  | some promise => locking (.countShared promise)

def getActionWriterExclusiveLock : ManagerM Unit := do
  let promise ← locking (.push .actionWriterExclusiveLocks)
  locking (.lock .actionWriterExclusiveLocks promise)

def getActive : ManagerM Unit := do
  if !(← ask .verifyActive) then
    throw (.invalidOperation "An active WalletStorageProvider must be added to this WalletStorageManager and makeAvailable must be called.")

def getActiveForReader : ManagerM Unit := do
  getActiveLock .readerLocks
  getActive

def getActiveForWriter : ManagerM Unit := do
  getActiveLock .readerLocks
  getActiveLock .writerLocks
  getActive

def getActiveForSync : ManagerM Unit := do
  getActiveLock .readerLocks
  getActiveLock .writerLocks
  getActiveLock .syncLocks
  getActive

def getActiveForStorageProvider : ManagerM Unit := do
  getActiveLock .readerLocks
  getActiveLock .writerLocks
  getActiveLock .syncLocks
  getActiveLock .spLocks
  getActive
  if !(← ask .isStorageProvider) then
    throw (.invalidOperation "Active \"WalletStorageProvider\" does not support \"StorageProvider\" interface.")

def release (queues : List LockQueue) : ManagerM Unit := locking (.release queues)

def callback : ManagerM Unit := do
  if !(← ask .callback) then throw .callback

def runAsWriter : ManagerM Unit := do
  getActionWriterExclusiveLock
  Program.ensuring (do getActiveForWriter; callback)
    (release [.writerLocks, .readerLocks, .actionWriterExclusiveLocks])

def runAsActionWriter : ManagerM Unit := do
  if !(← ask .concurrentActionWriter) then runAsWriter
  else do
    getActionWriterSharedLock
    if !(← ask .concurrentActionWriter) then
      locking .releaseActionWriterSharedLock
      runAsWriter
    else Program.ensuring callback (locking .releaseActionWriterSharedLock)

def runAsReader : ManagerM Unit :=
  Program.ensuring (do getActiveForReader; callback) (release [.readerLocks])

def runAsSync : ManagerM Unit :=
  Program.ensuring (do getActiveForSync; callback) (release [.syncLocks, .writerLocks, .readerLocks])

def runAsStorageProvider : ManagerM Unit :=
  Program.ensuring (do getActiveForStorageProvider; callback)
    (release [.spLocks, .syncLocks, .writerLocks, .readerLocks])

end WalletStorageManager

inductive RunAs where
  | reader | writer | actionWriter | sync | storageProvider
deriving DecidableEq, Repr

def RunAs.program : RunAs → ManagerM Unit
  | .reader => WalletStorageManager.runAsReader
  | .writer => WalletStorageManager.runAsWriter
  | .actionWriter => WalletStorageManager.runAsActionWriter
  | .sync => WalletStorageManager.runAsSync
  | .storageProvider => WalletStorageManager.runAsStorageProvider

end WalletToolbox

import WalletToolbox.Manager.WalletStorageManager
import WalletToolbox.Storage.Tables

/-! The stores of `WalletStorageManager`: `makeAvailable` asks each of them for its settings
and its user and divides them among the active store, its backups and the stores in
conflict with it. Stores are numbered as in `_stores`; what a storage answers is given. -/

namespace WalletToolbox
open Async

structure TableSettings where
  storageIdentityKey : String
deriving DecidableEq, Repr

structure ManagedStorage where
  isAvailable : Bool := false
  settings : Option TableSettings := none
  user : Option TableUser := none
deriving DecidableEq, Repr

structure StorageAnswer where
  settings : Option TableSettings
  user : Option TableUser
  holds : Bool

structure AuthId where
  userId : Option Nat := none
  isActive : Option Bool := none
deriving DecidableEq, Repr

structure StoreManager where
  stores : List ManagedStorage
  isAvailable : Bool
  active : Option Nat
  backups : List Nat
  conflictingActives : List Nat
  authId : AuthId
  storageAnswers : Nat → StorageAnswer
  locks : LockManager

/-- What comes after a store of the loop: the next one, if it has to be asked, or the end. -/
inductive Selected where
  | next (backups : List Nat) (needed : Bool)
  | finished (settings : Option TableSettings)

inductive Begun where
  | available (settings : Option TableSettings)
  | noStores
  | begun (needed : Bool)

/-- The synchronous sections of the methods that touch the stores. -/
inductive StoresOp where
  | begin
  | settings (store : Nat)
  | user (store : Nat)
  /-- `selectActiveFromStore` and what follows it up to the next await. -/
  | select (store : Nat) (backups : List Nat)
  | providerAvailable
  | push
  | isAvailable
  | verifyActive
  | concurrentActionWriter
  | auth
  | lock (op : LockOp)

@[reducible] def StoresOp.Reply : StoresOp → Type
  | .begin => Begun
  | .select _ _ => Selected
  | .settings _ | .user _ | .providerAvailable | .isAvailable | .verifyActive | .concurrentActionWriter => Bool
  | .push => Unit
  | .auth => AuthId
  | .lock op => op.Reply

abbrev managedStores : Interface := ⟨StoresOp, StoresOp.Reply⟩

namespace StoreManager

def new (stores : Nat) (storageAnswers : Nat → StorageAnswer) (answers : Nat → Bool) : StoreManager where
  stores := List.replicate stores {}
  isAvailable := false
  active := none
  backups := []
  conflictingActives := []
  authId := {}
  storageAnswers
  locks := .new false answers

variable (manager : StoreManager)

def activeStorage (store : Nat) : Option String := (manager.stores[store]?.bind ManagedStorage.user).map TableUser.activeStorage

def identityKey (store : Nat) : Option String :=
  (manager.stores[store]?.bind ManagedStorage.settings).map TableSettings.storageIdentityKey

def selectsItself (store : Nat) : Bool := (manager.identityKey store).isSome && manager.activeStorage store = manager.identityKey store

def isActiveEnabled : Bool :=
  match manager.active with
  | none => false
  | some active => manager.selectsItself active && manager.conflictingActives = []

/-- The store has not answered yet. -/
def needed (store : Nat) : Bool :=
  match manager.stores[store]? with
  | none => false
  | some stored => !(stored.isAvailable && stored.settings.isSome && stored.user.isSome)

def selectActiveFromStore (store : Nat) (backups : List Nat) : StoreManager × List Nat :=
  match manager.active with
  | none => ({ manager with active := some store }, backups)
  | some active =>
    if manager.selectsItself store && !manager.isActiveEnabled then ({ manager with active := some store }, backups ++ [active])
    else (manager, backups ++ [store])

def activeSettings : Option TableSettings := manager.active.bind fun active => manager.stores[active]?.bind ManagedStorage.settings

def partition (backups : List Nat) : StoreManager :=
  let si := manager.active.bind manager.identityKey
  let divided := { manager with
    conflictingActives := manager.conflictingActives ++ backups.filter (manager.activeStorage · ≠ si)
    backups := manager.backups ++ backups.filter (manager.activeStorage · = si)
    isAvailable := true }
  { divided with
    authId.userId := (manager.active.bind fun active => manager.stores[active]?.bind ManagedStorage.user).map TableUser.userId
    authId.isActive := some divided.isActiveEnabled }

def begin : Begun × StoreManager :=
  if manager.isAvailable then (.available manager.activeSettings, manager)
  else
    let reset := { manager with active := none, backups := [], conflictingActives := [] }
    if manager.stores = [] then (.noStores, reset) else (.begun (manager.needed 0), reset)

def select (store : Nat) (backups : List Nat) : Selected × StoreManager :=
  let (selected, backups) := manager.selectActiveFromStore store backups
  if store + 1 < selected.stores.length then (.next backups (selected.needed (store + 1)), selected)
  else (.finished (selected.partition backups).activeSettings, selected.partition backups)

def answer : StorageAnswer × StoreManager :=
  (manager.storageAnswers 0, { manager with storageAnswers := fun index => manager.storageAnswers (index + 1) })

def setStore (store : Nat) (change : ManagedStorage → ManagedStorage) : StoreManager :=
  { manager with stores := manager.stores.modify store change }

def setSettings (store : Nat) : Bool × StoreManager :=
  let (answer, manager) := manager.answer
  match answer.settings with
  | none => (false, manager)
  | some settings => (true, manager.setStore store ({ · with settings := some settings }))

def setUser (store : Nat) : Bool × StoreManager :=
  let (answer, manager) := manager.answer
  match answer.user with
  | none => (false, manager)
  | some user => (true, manager.setStore store ({ · with user := some user, isAvailable := true }))

def concurrentActionWriter : Bool × StoreManager :=
  if manager.isAvailable && manager.isActiveEnabled && manager.stores.length = 1 && manager.backups = [] &&
      manager.conflictingActives = [] then
    let (answer, manager) := manager.answer
    (answer.holds, manager)
  else (false, manager)

def exec : Machine managedStores StoreManager
  | .begin, manager => manager.begin
  | .settings store, manager => manager.setSettings store
  | .user store, manager => manager.setUser store
  | .select store backups, manager => manager.select store backups
  | .providerAvailable, manager => (manager.answer.1.holds, manager.answer.2)
  | .push, manager => ((), { manager with stores := manager.stores ++ [{}], isAvailable := false })
  | .isAvailable, manager => (manager.isAvailable, manager)
  | .verifyActive, manager => (manager.active.isSome && manager.isAvailable, manager)
  | .concurrentActionWriter, manager => manager.concurrentActionWriter
  | .auth, manager => (manager.authId, manager)
  | .lock op, manager => ((LockManager.exec op manager.locks).1, { manager with locks := (LockManager.exec op manager.locks).2 })

end StoreManager

inductive StoresError where
  | invalidParameter (parameter mustBe : String)
  | storage
  | notActive
  | rounds
  | runAs (error : RunAsError)
deriving DecidableEq, Repr

abbrev StoresM := Program managedStores StoresError

abbrev StoresOp.await (op : StoresOp) : StoresM op.Reply := .await op .done

namespace WalletStorageManager

def ensureStoreAvailable (store : Nat) (needed : Bool) : StoresM Unit := do
  if needed then
    if !(← (StoresOp.settings store).await) then throw .storage
    if !(← (StoresOp.user store).await) then throw .storage

/-- The loop of `makeAvailable`, which follows `_stores` even while it grows. -/
def makeAvailableFrom (rounds store : Nat) (backups : List Nat) (needed : Bool) : StoresM (Option TableSettings) :=
  match rounds with
  | 0 => throw .rounds
  | rounds + 1 => do
    ensureStoreAvailable store needed
    match ← (StoresOp.select store backups).await with
    | .finished settings => return settings
    | .next backups needed => makeAvailableFrom rounds (store + 1) backups needed

def makeAvailable (rounds : Nat) : StoresM (Option TableSettings) := do
  match ← StoresOp.begin.await with
  | .available settings => return settings
  | .noStores => throw (.invalidParameter "active" "valid. Must add active storage provider to wallet.")
  | .begun needed => makeAvailableFrom rounds 0 [] needed

def getAuth (rounds : Nat) (mustBeActive : Bool) : StoresM AuthId := do
  if !(← StoresOp.isAvailable.await) then
    let _ ← makeAvailable rounds
  let authId ← StoresOp.auth.await
  if mustBeActive && authId.isActive ≠ some true then throw .notActive
  else return authId

def addWalletStorageProvider (rounds : Nat) : StoresM Unit := do
  if !(← StoresOp.providerAvailable.await) then throw .storage
  else
    StoresOp.push.await
    let _ ← makeAvailable rounds

def implementLock (rounds : Nat) : (op : LockOp) → StoresM op.Reply
  | .ask .isAvailable => StoresOp.isAvailable.await
  | .ask .makeAvailable => do
    let _ ← makeAvailable rounds
    return true
  | .ask .verifyActive => StoresOp.verifyActive.await
  | .ask .concurrentActionWriter => StoresOp.concurrentActionWriter.await
  | op => (StoresOp.lock op).await

/-- Only a question can fail: it is denied. -/
def lockReply : (op : LockOp) → Except StoresError op.Reply → op.Reply
  | .ask _, outcome => outcome.toOption.getD false
  | .push _, outcome => outcome.toOption.getD 0
  | .getActionWriterSharedLock, outcome => outcome.toOption.getD none
  | .lock _ _, _ | .countShared _, _ | .releaseActionWriterSharedLock, _ | .release _, _ => ()

def runAs (rounds : Nat) (method : RunAs) : StoresM Unit :=
  Program.handle (method.program.translate (implementLock rounds) lockReply) fun error => throw (.runAs error)

end WalletStorageManager

inductive StoreCall where
  | makeAvailable
  | getAuth (mustBeActive : Bool)
  | addWalletStorageProvider
  | runAs (method : RunAs)
deriving DecidableEq, Repr

def StoreCall.program (rounds : Nat) : StoreCall → StoresM Unit
  | .makeAvailable => do let _ ← WalletStorageManager.makeAvailable rounds
  | .getAuth mustBeActive => do let _ ← WalletStorageManager.getAuth rounds mustBeActive
  | .addWalletStorageProvider => WalletStorageManager.addWalletStorageProvider rounds
  | .runAs method => WalletStorageManager.runAs rounds method

end WalletToolbox

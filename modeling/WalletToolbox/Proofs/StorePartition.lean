import Mathlib.Data.List.Perm.Basic
import WalletToolbox.Manager.ManagedStores

/-! `makeAvailable` divides the stores: each is the active store, a backup of it, or in
conflict with it. The division is built in the fields of the manager while the stores
answer, so it holds as long as no other run starts and no store is added meanwhile. -/

namespace WalletToolbox
open Async WalletStorageManager

namespace StoreManager

structure PartitionedBy (manager : StoreManager) (active : Nat) : Prop where
  current : manager.active = some active
  answered : ∀ store < manager.stores.length, manager.needed store = false
  once : (active :: (manager.backups ++ manager.conflictingActives)).Perm (List.range manager.stores.length)
  selected : (∃ store < manager.stores.length, manager.selectsItself store = true) → manager.selectsItself active = true
  default : (∀ store < manager.stores.length, manager.selectsItself store = false) → active = 0
  backups : ∀ store, store ∈ manager.backups ↔
    store < manager.stores.length ∧ store ≠ active ∧ manager.activeStorage store = manager.identityKey active
  enabled : manager.isActiveEnabled = true ↔ manager.selectsItself active = true ∧
    ∀ store < manager.stores.length, store ≠ active → manager.activeStorage store = manager.identityKey active

def Settled (manager : StoreManager) : Prop := manager.isAvailable = true → ∃ active, manager.PartitionedBy active

structure Chosen (manager : StoreManager) (active store : Nat) (backups : List Nat) : Prop where
  current : manager.active = some active
  once : (active :: backups).Perm (List.range store)
  selected : (∃ earlier < store, manager.selectsItself earlier = true) → manager.selectsItself active = true
  default : (∀ earlier < store, manager.selectsItself earlier = false) → active = 0

structure Selecting (manager : StoreManager) (store : Nat) (backups : List Nat) : Prop where
  unavailable : manager.isAvailable = false
  noBackups : manager.backups = []
  noConflicts : manager.conflictingActives = []
  here : store < manager.stores.length
  answered : ∀ earlier < store, manager.needed earlier = false
  chosen : store = 0 ∧ manager.active = none ∧ backups = [] ∨ ∃ active, manager.Chosen active store backups

section
variable {manager : StoreManager} {store active : Nat} {backups : List Nat}

theorem perm_range_succ (once : values.Perm (List.range store)) : (values ++ [store]).Perm (List.range (store + 1)) := by
  rw [List.range_succ]
  exact once.append_right [store]

theorem isActiveEnabled_eq (chosen : manager.active = some active) (noConflicts : manager.conflictingActives = []) :
    manager.isActiveEnabled = manager.selectsItself active := by
  unfold isActiveEnabled
  rw [chosen, noConflicts]
  simp

theorem Selecting.select (selecting : manager.Selecting store backups) :
    ∃ active, (manager.selectActiveFromStore store backups).1.Chosen active (store + 1) (manager.selectActiveFromStore store backups).2 := by
  rcases selecting.chosen with ⟨rfl, none, rfl⟩ | ⟨active, chosen⟩
  · refine ⟨0, ?_⟩
    unfold selectActiveFromStore
    rw [none]
    refine ⟨rfl, .refl _, fun selects => ?_, fun _ => rfl⟩
    obtain ⟨earlier, below, selects⟩ := selects
    obtain rfl : earlier = 0 := by omega
    exact selects
  · have enabled := isActiveEnabled_eq chosen.current selecting.noConflicts
    unfold selectActiveFromStore
    rw [chosen.current]
    dsimp only
    split
    · next swaps =>
      simp only [Bool.and_eq_true, Bool.not_eq_true', enabled] at swaps
      refine ⟨store, rfl, ?_, fun _ => swaps.1, fun unselected => ?_⟩
      · have rest := (List.perm_append_singleton active backups).trans chosen.once
        exact (List.perm_append_singleton store _).symm.trans (perm_range_succ rest)
      · have none : manager.selectsItself store = false := unselected store (by omega)
        rw [none] at swaps
        cases swaps.1
    · next stays =>
      refine ⟨active, chosen.current, perm_range_succ chosen.once, fun selects => ?_, fun unselected => ?_⟩
      · obtain ⟨earlier, below, selects⟩ := selects
        by_cases last : earlier = store
        · subst last
          simp only [Bool.and_eq_true, Bool.not_eq_true', enabled, not_and, Bool.not_eq_false] at stays
          exact stays selects
        · exact chosen.selected ⟨earlier, by omega, selects⟩
      · exact chosen.default fun earlier below => unselected earlier (by omega)

theorem selectActiveFromStore_keeps (manager : StoreManager) (store : Nat) (backups : List Nat) :
    (manager.selectActiveFromStore store backups).1 = { manager with active := (manager.selectActiveFromStore store backups).1.active } := by
  unfold selectActiveFromStore
  repeat' split
  all_goals rfl

/-- Dividing the rest by what they select. -/
theorem Chosen.partition (chosen : manager.Chosen active manager.stores.length backups)
    (answered : ∀ store < manager.stores.length, manager.needed store = false) (noBackups : manager.backups = [])
    (noConflicts : manager.conflictingActives = []) : (manager.partition backups).PartitionedBy active := by
  have others : ∀ store, store ∈ backups ↔ store < manager.stores.length ∧ store ≠ active := by
    intro store
    have apart : active ∉ backups := (List.nodup_cons.mp (chosen.once.nodup_iff.mpr List.nodup_range)).1
    have listed : store ∈ active :: backups ↔ store < manager.stores.length := chosen.once.mem_iff.trans List.mem_range
    rw [← listed, List.mem_cons]
    constructor
    · intro member
      exact ⟨.inr member, fun same => apart (same ▸ member)⟩
    · intro member
      exact member.1.resolve_left member.2
  have key : manager.active.bind manager.identityKey = manager.identityKey active := by rw [chosen.current]; rfl
  have backed : (manager.partition backups).backups = backups.filter (manager.activeStorage · = manager.identityKey active) := by
    unfold StoreManager.partition
    simp only [noBackups, key, List.nil_append]
  have conflicting : (manager.partition backups).conflictingActives = backups.filter (manager.activeStorage · ≠ manager.identityKey active) := by
    unfold StoreManager.partition
    simp only [noConflicts, key, List.nil_append]
  refine ⟨chosen.current, answered, ?_, chosen.selected, chosen.default, fun store => ?_, ?_⟩
  · rw [backed, conflicting]
    refine .trans (.cons active ?_) chosen.once
    simpa using List.filter_append_perm (fun store => decide (manager.activeStorage store = manager.identityKey active)) backups
  · rw [backed, List.mem_filter, others store, decide_eq_true_eq, and_assoc]
    rfl
  · have enabled : (manager.partition backups).isActiveEnabled =
        (manager.selectsItself active && decide ((manager.partition backups).conflictingActives = [])) := by
      unfold isActiveEnabled
      rw [show (manager.partition backups).active = some active from chosen.current]
      rfl
    rw [enabled, conflicting, Bool.and_eq_true, decide_eq_true_eq, List.filter_eq_nil_iff]
    refine and_congr_right' ⟨fun none store below different => ?_, fun all store member => ?_⟩
    · exact not_not.mp fun conflicts => none store ((others store).mpr ⟨below, different⟩) (decide_eq_true conflicts)
    · obtain ⟨below, different⟩ := (others store).mp member
      exact fun conflicts => of_decide_eq_true conflicts (all store below different)

theorem Selecting.select_cases (selecting : manager.Selecting store backups) (answered : manager.needed store = false) :
    (∃ others, (manager.select store backups).1 = .next others ((manager.select store backups).2.needed (store + 1)) ∧
      (manager.select store backups).2.Selecting (store + 1) others) ∨
    ∃ settings, (manager.select store backups).1 = .finished settings ∧
      ∃ active, (manager.select store backups).2.PartitionedBy active := by
  obtain ⟨active, chosen⟩ := selecting.select
  have keeps := selectActiveFromStore_keeps manager store backups
  have here := selecting.here
  have all : ∀ earlier < store + 1, manager.needed earlier = false := by
    intro earlier below
    by_cases last : earlier = store
    · exact last ▸ answered
    · exact selecting.answered earlier (by omega)
  unfold StoreManager.select
  generalize manager.selectActiveFromStore store backups = chose at chosen keeps ⊢
  obtain ⟨selected, others⟩ := chose
  dsimp only at chosen keeps ⊢
  have same : selected.stores = manager.stores := by rw [keeps]
  have needs : ∀ earlier, selected.needed earlier = manager.needed earlier := fun earlier => by rw [needed, same, needed]
  have unavailable : selected.isAvailable = false := by rw [keeps]; exact selecting.unavailable
  have noBackups : selected.backups = [] := by rw [keeps]; exact selecting.noBackups
  have noConflicts : selected.conflictingActives = [] := by rw [keeps]; exact selecting.noConflicts
  split
  · next more =>
    refine .inl ⟨others, rfl, unavailable, noBackups, noConflicts, more, fun earlier below => ?_, .inr ⟨active, chosen⟩⟩
    rw [needs]
    exact all earlier below
  · next last =>
    have length : selected.stores.length = store + 1 := by
      rw [same] at last ⊢
      omega
    refine .inr ⟨_, rfl, active, Chosen.partition (length ▸ chosen) (fun earlier below => ?_) noBackups noConflicts⟩
    rw [needs]
    exact all earlier (length ▸ below)

theorem stores_setStore (change : ManagedStorage → ManagedStorage) (other : Nat) (different : other ≠ store) :
    (manager.setStore store change).stores[other]? = manager.stores[other]? := by
  simp [setStore, List.getElem?_modify, Ne.symm different]

theorem Selecting.setStore (selecting : manager.Selecting store backups) (change : ManagedStorage → ManagedStorage) :
    (manager.setStore store change).Selecting store backups := by
  have selects : ∀ earlier < store, (manager.setStore store change).selectsItself earlier = manager.selectsItself earlier := by
    intro earlier below
    unfold selectsItself identityKey activeStorage
    rw [stores_setStore change earlier (by omega)]
  refine ⟨selecting.unavailable, selecting.noBackups, selecting.noConflicts, ?_, fun earlier below => ?_, ?_⟩
  · exact (List.length_modify ..).symm ▸ selecting.here
  · unfold needed
    rw [stores_setStore change earlier (by omega)]
    exact selecting.answered earlier below
  · refine selecting.chosen.imp id fun ⟨active, chosen⟩ => ⟨active, chosen.current, chosen.once, fun selected => ?_, fun unselected => ?_⟩
    · have below := List.mem_range.mp (chosen.once.mem_iff.mp (.head _))
      obtain ⟨earlier, before, itself⟩ := selected
      rw [selects active below]
      exact chosen.selected ⟨earlier, before, selects earlier before ▸ itself⟩
    · exact chosen.default fun earlier below => selects earlier below ▸ unselected earlier below

structure SamePartition (before after : StoreManager) : Prop where
  stores : after.stores = before.stores
  isAvailable : after.isAvailable = before.isAvailable
  active : after.active = before.active
  backups : after.backups = before.backups
  conflictingActives : after.conflictingActives = before.conflictingActives

section
variable {before after : StoreManager}

theorem SamePartition.refl (manager : StoreManager) : SamePartition manager manager := ⟨rfl, rfl, rfl, rfl, rfl⟩

theorem SamePartition.trans (earlier : SamePartition before after) (later : SamePartition after last) :
    SamePartition before last :=
  ⟨later.stores.trans earlier.stores, later.isAvailable.trans earlier.isAvailable, later.active.trans earlier.active,
    later.backups.trans earlier.backups, later.conflictingActives.trans earlier.conflictingActives⟩

theorem SamePartition.eq (same : SamePartition before after) :
    after = { before with authId := after.authId, storageAnswers := after.storageAnswers, locks := after.locks } := by
  obtain ⟨stores, isAvailable, active, backups, conflictingActives⟩ := same
  cases before
  cases after
  subst stores isAvailable active backups conflictingActives
  rfl

theorem SamePartition.settled (same : SamePartition before after) (settled : before.Settled) : after.Settled := by
  intro available
  obtain ⟨active, current, answered, once, selected, default, backups, enabled⟩ := settled (same.isAvailable ▸ available)
  rw [same.eq]
  exact ⟨active, current, answered, once, selected, default, backups, enabled⟩

theorem SamePartition.selecting (same : SamePartition before after) (selecting : before.Selecting store backups) :
    after.Selecting store backups := by
  obtain ⟨unavailable, noBackups, noConflicts, here, answered, chosen⟩ := selecting
  rw [same.eq]
  refine ⟨unavailable, noBackups, noConflicts, here, answered, ?_⟩
  exact chosen.imp id fun ⟨active, current, once, selected, default⟩ => ⟨active, current, once, selected, default⟩

theorem SamePartition.needed (same : SamePartition before after) (store : Nat) : after.needed store = before.needed store := by
  unfold StoreManager.needed
  rw [same.stores]

end

def HasSettings (manager : StoreManager) (store : Nat) : Prop := ∃ stored, manager.stores[store]? = some stored ∧ stored.settings.isSome = true

theorem setStore_here (change : ManagedStorage → ManagedStorage) (here : manager.stores[store]? = some stored) :
    (manager.setStore store change).stores[store]? = some (change stored) := by
  simp [setStore, here]

theorem answer_same (manager : StoreManager) : SamePartition manager manager.answer.2 := ⟨rfl, rfl, rfl, rfl, rfl⟩

theorem Selecting.setSettings (selecting : manager.Selecting store backups) :
    (manager.setSettings store).2.Selecting store backups ∧
      ((manager.setSettings store).1 = true → HasSettings (manager.setSettings store).2 store) := by
  have answered := (answer_same manager).selecting selecting
  unfold StoreManager.setSettings
  dsimp only
  cases manager.answer.1.settings with
  | none => exact ⟨answered, fun told => by cases told⟩
  | some settings =>
    refine ⟨answered.setStore _, fun _ => ⟨_, setStore_here _ (List.getElem?_eq_getElem answered.here), rfl⟩⟩

theorem Selecting.setUser (selecting : manager.Selecting store backups) (has : HasSettings manager store) :
    (manager.setUser store).2.Selecting store backups ∧ ((manager.setUser store).1 = true → (manager.setUser store).2.needed store = false) := by
  have answered := (answer_same manager).selecting selecting
  obtain ⟨stored, here, settings⟩ := has
  unfold StoreManager.setUser
  dsimp only
  cases manager.answer.1.user with
  | none => exact ⟨answered, fun told => by cases told⟩
  | some user =>
    refine ⟨answered.setStore _, fun _ => ?_⟩
    have here : manager.answer.2.stores[store]? = some stored := here
    unfold needed
    rw [setStore_here _ here]
    simp [settings]

theorem SamePartition.hasSettings (same : SamePartition before after) (has : HasSettings before store) :
    HasSettings after store := by
  obtain ⟨stored, here, settings⟩ := has
  exact ⟨stored, same.stores ▸ here, settings⟩

theorem begin_cases (manager : StoreManager) :
    (∃ settings, manager.begin = (.available settings, manager)) ∨
    (manager.isAvailable = false ∧ ∃ after, manager.begin = (.noStores, after) ∧ after.isAvailable = false) ∨
    (manager.isAvailable = false ∧ ∃ after, manager.begin = (.begun (after.needed 0), after) ∧ after.Selecting 0 []) := by
  unfold StoreManager.begin
  split
  · exact .inl ⟨_, rfl⟩
  · next unavailable =>
    have unavailable : manager.isAvailable = false := by simpa using unavailable
    split
    · exact .inr (.inl ⟨unavailable, _, rfl, unavailable⟩)
    · next some =>
      refine .inr (.inr ⟨unavailable, { manager with active := none, backups := [], conflictingActives := [] }, rfl, ?_⟩)
      exact ⟨unavailable, rfl, rfl, List.length_pos_iff.mpr some, fun _ below => absurd below (Nat.not_lt_zero _), .inl ⟨rfl, rfl, rfl⟩⟩

end

end StoreManager
end WalletToolbox

import WalletToolbox.Proofs.LockQueues
import WalletToolbox.Language.Numerals

/-! Any number of calls on one manager, interleaved at every await. A call that awaits
the promise of a lock goes on once it is resolved. -/

namespace WalletToolbox
open Async LockManager

abbrev ManagerPool (ι : Type) := Pool lockManager RunAsError Unit LockManager ι

/-- Every call at its first await, on a manager nobody holds a lock of. -/
def startRunAs {ι : Type} (calls : ι → RunAs) (isAvailable : Bool) (answers : Nat → Bool) : ManagerPool ι :=
  Pool.start (new isAvailable answers) fun caller => (calls caller).program

section
variable {ι : Type}

/-- The locks of a call. -/
def LocksOf (pool : ManagerPool ι) (caller : ι) : Holding := holding (pool.task caller).past

def Ready (pool : ManagerPool ι) (caller : ι) : Prop :=
  ∀ op next, (pool.task caller).program = .await op next → match op with
    | .lock _ promise | .countShared promise => pool.store.resolved promise = true
    | .ask _ | .push _ | .getActionWriterSharedLock | .releaseActionWriterSharedLock | .release _ => True

/-- A call that releases a queue it never entered finds it empty. -/
def ReleasesOwn (pool : ManagerPool ι) (caller : ι) : Prop :=
  ∀ queues next, (pool.task caller).program = .await (.release queues) next →
    ∀ queue ∈ queues, (LocksOf pool caller).entry queue = none → pool.store.locks queue = []

theorem LockManager.exec_isAvailable (op : LockOp) (manager) :
    (LockManager.exec op manager).2.isAvailable = manager.isAvailable := by
  have wakes : ∀ (current : LockManager) queue, (current.wakeHead queue).isAvailable = current.isAvailable := by
    intro current queue
    unfold wakeHead
    split <;> rfl
  have resolves : ∀ (promises : List Nat) (current : LockManager), (promises.foldl resolve current).isAvailable = current.isAvailable := by
    intro promises
    induction promises with
    | nil => exact fun _ => rfl
    | cons promise rest ih => exact fun current => ih (current.resolve promise)
  have one : ∀ (current : LockManager) queue, (current.releaseQueue queue).isAvailable = current.isAvailable := by
    intro current queue
    unfold releaseQueue
    split
    · unfold releaseActionWriterExclusiveLock
      dsimp only
      split
      · split
        · exact wakes _ _
        · rfl
      · exact resolves _ _
    · exact wakes _ _
  cases op with
  | ask question =>
    simp only [LockManager.exec, LockManager.ask]
    split <;> rfl
  | push queue =>
    simp only [LockManager.exec, LockManager.push]
    split <;> rfl
  | lock | countShared => rfl
  | getActionWriterSharedLock =>
    simp only [LockManager.exec, LockManager.getActionWriterSharedLock]
    split <;> rfl
  | releaseActionWriterSharedLock =>
    simp only [LockManager.exec, LockManager.releaseActionWriterSharedLock]
    split
    · exact wakes _ _
    · rfl
  | release queues =>
    simp only [LockManager.exec]
    induction queues generalizing manager with
    | nil => rfl
    | cons queue rest ih => exact (ih (manager.releaseQueue queue)).trans (one manager queue)

section
variable [DecidableEq ι] {manager : LockManager} {held : ι → Holding} {caller : ι} {call : RunAs} {available : Bool} {op : LockOp}

theorem QueuesKept.step (kept : QueuesKept manager held) (may : (held caller).May call available op)
    (ready : ∀ promise, (∃ queue, op = .lock queue promise) ∨ op = .countShared promise → manager.resolved promise = true)
    (own : ∀ queues, op = .release queues → ∀ queue ∈ queues, (held caller).entry queue = none → manager.locks queue = []) :
    QueuesKept (LockManager.exec op manager).2 (Function.update held caller ((held caller).next ⟨op, (LockManager.exec op manager).1⟩)) := by
  cases op with
  | ask question =>
    have same : Function.update held caller ((held caller).next ⟨.ask question, (LockManager.exec (.ask question) manager).1⟩) = held :=
      Function.update_eq_self caller held
    rw [same]
    simp only [LockManager.exec, LockManager.ask]
    split
    · exact kept
    · exact ⟨kept.nodup, kept.owned, kept.kept, kept.apart, kept.known, kept.fresh, kept.head, kept.waiting, kept.granted, kept.counted⟩
  | push queue => exact kept.push may.1 may.2.2
  | lock queue promise => exact kept.lock may.1 may.2 (ready promise (.inl ⟨queue, rfl⟩))
  | getActionWriterSharedLock =>
    by_cases empty : manager.locks .actionWriterExclusiveLocks = []
    · have counts : LockManager.exec .getActionWriterSharedLock manager =
          (none, { manager with actionWriterSharedCount := manager.actionWriterSharedCount + 1 }) := if_pos empty
      rw [counts]
      exact kept.count may.2 (fun _ _ => rfl) may.1 rfl rfl fun promise has => by rw [may.1] at has; cases has
    · have queues : LockManager.exec .getActionWriterSharedLock manager =
          (some manager.nextPromise, manager.enqueue .actionWriterSharedLocks) := if_neg empty
      rw [queues]
      refine kept.enqueue may.1 rfl (fun other has => ⟨?_, has⟩) rfl
      exact (kept.granted caller other has).1
  | countShared promise =>
    refine kept.count may.2 (fun queue proper => ?_) ?_ rfl rfl fun other has => ?_
    · exact Function.update_of_ne proper _ _
    · simp [Holding.next]
    · rw [may.1, Option.some.injEq] at has
      exact has ▸ ready promise (.inr rfl)
  | releaseActionWriterSharedLock => exact kept.uncount may
  | release queues =>
    refine kept.release may.1 may.2.1 fun queue member => (may.2.2 queue member).imp id fun missed => ?_
    obtain ⟨entry, locked, exclusive, -⟩ := missed
    exact ⟨entry, locked, exclusive, own queues rfl queue member entry⟩

end

theorem runAs_contracted (allowed : ManagerPool ι → ι → Prop) (calls : ι → RunAs) (isAvailable : Bool) :
    Pool.Contracted LockManager.exec allowed (fun manager => manager.isAvailable = isAvailable)
      (fun caller => lockContract (calls caller) isAvailable) (fun _ => Freed) where
  steady _ _ _ holds := holds
  trans _ _ _ _ _ _ later := later
  stable _ _ _ _ _ freed _ := freed
  permits _ _ _ _ _ _ _ := trivial
  keeps _ _ op _ holds _ _ _ := (exec_isAvailable op _).trans holds
  spares _ _ _ op _ holds _ _ _ _ := (exec_isAvailable op _).trans holds

variable [DecidableEq ι] {calls : ι → RunAs} {isAvailable : Bool} {answers : Nat → Bool} {allowed : ManagerPool ι → ι → Prop}
  {pool : ManagerPool ι}

theorem runAs_may (reached : Pool.Reaches LockManager.exec allowed (startRunAs calls isAvailable answers) pool) (awaiting : (pool.task caller).program = .await op next) :
    (LocksOf pool caller).May (calls caller) isAvailable op := by
  have guarded := fun caller => runAs_guarded (calls caller) isAvailable (new isAvailable answers)
  obtain ⟨available, each⟩ := reached.guarded (runAs_contracted allowed calls isAvailable) rfl guarded
  have here := each caller
  rw [awaiting] at here
  exact (here pool.store available trivial).1

theorem runAs_freed (reached : Pool.Reaches LockManager.exec allowed (startRunAs calls isAvailable answers) pool)
    (settled : (pool.task caller).program.outcome.isSome = true) : (LocksOf pool caller).Only [] := by
  have guarded := fun caller => runAs_guarded (calls caller) isAvailable (new isAvailable answers)
  have here := (reached.guarded (runAs_contracted allowed calls isAvailable) rfl guarded).2 caller
  cases program : (pool.task caller).program with
  | done _ | fail _ =>
    rw [program] at here
    exact here
  | await op next =>
    rw [program] at settled
    cases settled

theorem locksOf_step
    (tasks : after.task = Function.update pool.task caller ⟨(pool.task caller).past ++ [event], program⟩) :
    LocksOf after = Function.update (LocksOf pool) caller ((LocksOf pool caller).next event) := by
  funext other
  unfold LocksOf
  rw [tasks]
  by_cases same : other = caller
  · subst same
    rw [Function.update_self, Function.update_self, holding_append]
  · rw [Function.update_of_ne same, Function.update_of_ne same]

theorem queues_reaches (implies : ∀ pool caller, allowed pool caller → Ready pool caller)
    (own : ∀ pool caller, Pool.Reaches LockManager.exec allowed (startRunAs calls isAvailable answers) pool → allowed pool caller → ReleasesOwn pool caller)
    (reached : Pool.Reaches LockManager.exec allowed (startRunAs calls isAvailable answers) pool) : QueuesKept pool.store (LocksOf pool) := by
  have step : ∀ pool caller after, Pool.Reaches LockManager.exec allowed (startRunAs calls isAvailable answers) pool →
      QueuesKept pool.store (LocksOf pool) → allowed pool caller → pool.advance LockManager.exec caller = some after →
      QueuesKept after.store (LocksOf after) := by
    intro pool caller after reached kept permitted moves
    obtain ⟨op, next, awaiting, store, tasks⟩ := Pool.advance_cases moves
    rw [store, locksOf_step tasks]
    refine kept.step (runAs_may reached awaiting) (fun promise waits => ?_) fun queues is queue member entry => ?_
    · have ready := implies pool caller permitted op next awaiting
      rcases waits with ⟨queue, rfl⟩ | rfl
      · exact ready
      · exact ready
    · subst is
      exact own pool caller reached permitted queues next awaiting queue member entry
  exact reached.invariant (QueuesKept.new isAvailable answers) step

/-- Every lock entry stays with its call, every queue has one holder, and nothing is
left when all have settled: in every run in which a call whose acquisition failed
releases no queue another call is in. -/
theorem locks_own (reached : Pool.Reaches LockManager.exec (fun pool caller => Ready pool caller ∧ ReleasesOwn pool caller)
      (startRunAs calls isAvailable answers) pool) :
    (∀ caller queue promise, (LocksOf pool caller).entry queue = some promise →
      promise ∈ pool.store.locks queue ∨ queue = .actionWriterSharedLocks ∧ pool.store.resolved promise = true) ∧
    (∀ first second queue, (LocksOf pool first).locked queue = true → (LocksOf pool second).locked queue = true → first = second) ∧
    ((∀ caller, (pool.task caller).program.outcome.isSome = true) →
      (∀ queue, pool.store.locks queue = []) ∧ pool.store.actionWriterSharedCount = 0) := by
  have kept := queues_reaches (fun _ _ permitted => permitted.1) (fun _ _ _ permitted => permitted.2) reached
  refine ⟨kept.kept, fun first second queue mine yours => kept.holder mine yours, fun settled => ?_⟩
  have free := fun caller => runAs_freed reached (settled caller)
  constructor
  · intro queue
    rw [List.eq_nil_iff_forall_not_mem]
    intro promise member
    obtain ⟨owner, entry⟩ := kept.owned queue promise member
    rw [((free owner).others queue List.not_mem_nil).1] at entry
    cases entry
  · obtain ⟨sharing, members, size⟩ := kept.counted
    rw [← size, Finset.card_eq_zero, Finset.eq_empty_iff_forall_notMem]
    intro caller member
    have counted := (members caller).mp member
    rw [(free caller).counted] at counted
    cases counted

end

def readyNow {ι : Type} (pool : ManagerPool ι) (caller : ι) : Bool :=
  match (pool.task caller).program with
  | .await (.lock _ promise) _ | .await (.countShared promise) _ => pool.store.resolved promise
  | _ => true

theorem readyNow_ready (pool) (caller : ι) (ready : readyNow pool caller = true) : Ready pool caller := by
  intro op next awaiting
  rw [readyNow, awaiting] at ready
  cases op with
  | lock | countShared => exact ready
  | ask | push | getActionWriterSharedLock | releaseActionWriterSharedLock | release => trivial

/-- `ReleasesOwn`, computed. -/
def ownNow {ι : Type} (pool : ManagerPool ι) (caller : ι) : Bool :=
  match (pool.task caller).program with
  | .await (.release queues) _ =>
    queues.all fun queue => ((LocksOf pool caller).entry queue).isSome || (pool.store.locks queue).isEmpty
  | _ => true

theorem ownNow_own (pool) (caller : ι) (own : ownNow pool caller = true) : ReleasesOwn pool caller := by
  intro queues next awaiting queue member entry
  rw [ownNow, awaiting] at own
  have each := List.all_eq_true.mp own queue member
  rw [entry] at each
  simpa using each

theorem checked_own (pool) (caller : ι) (checked : (readyNow pool caller && ownNow pool caller) = true) :
    Ready pool caller ∧ ReleasesOwn pool caller := by
  rw [Bool.and_eq_true] at checked
  exact ⟨readyNow_ready pool caller checked.1, ownNow_own pool caller checked.2⟩

/-! Three readers of a manager that has just been made. The first two find it not
available; `makeAvailable` resolves for the first and rejects for the second. -/

def threeReaders (_ : Fin 3) : RunAs := .reader

def startReaders (answers : List Bool) : ManagerPool (Fin 3) := startRunAs threeReaders false fun index => answers.getD index true

/-- The reader that is not let in takes the lock of the one that is, and the third gets
in as well. -/
theorem locks_taken :
    ∃ pool, Pool.Reaches LockManager.exec Ready (startReaders [false, false, true, true, false]) pool ∧
      (LocksOf pool 0).locked .readerLocks = true ∧ (LocksOf pool 2).locked .readerLocks = true := by
  have runs : ((startReaders [false, false, true, true, false]).followWhile LockManager.exec readyNow [0, 1, 0, 0, 0, 0, 1, 1, 2, 2, 2]).map
      (fun pool => ((LocksOf pool 0).locked .readerLocks, (LocksOf pool 2).locked .readerLocks)) = some (true, true) := by decide +kernel
  obtain ⟨pool, followed, settled⟩ := Option.map_eq_some_iff.mp runs
  rw [Prod.mk.injEq] at settled
  exact ⟨pool, Pool.reaches_followWhile readyNow_ready followed, settled⟩

/-- The second is rejected before anybody is in the queue. -/
theorem locks_own_early :
    ∃ pool, Pool.Reaches LockManager.exec (fun pool caller => Ready pool caller ∧ ReleasesOwn pool caller)
        (startReaders [false, false]) pool ∧
      (pool.task 1).program = .fail .makeAvailable ∧ (pool.task 0).program = .done () ∧ (pool.task 2).program = .done () ∧
      pool.store.locks .readerLocks = [] := by
  have runs : ((startReaders [false, false]).followWhile LockManager.exec (fun pool caller => readyNow pool caller && ownNow pool caller)
      [1, 1, 1, 0, 0, 2, 2, 0, 0, 0, 0, 2, 2, 2, 2]).map
      (fun pool => ((pool.task 0).program.outcome, (pool.task 1).program.outcome, (pool.task 2).program.outcome)) =
      some (some (.ok ()), some (.error .makeAvailable), some (.ok ())) := by decide +kernel
  obtain ⟨pool, followed, settled⟩ := Option.map_eq_some_iff.mp runs
  simp only [Prod.mk.injEq] at settled
  obtain ⟨first, second, third⟩ := settled
  have reached := Pool.reaches_followWhile checked_own followed
  refine ⟨pool, reached, ?_, Program.outcome_ok.mp first, Program.outcome_ok.mp third, ?_⟩
  · cases program : (pool.task 1).program with
    | fail error =>
      rw [program] at second
      cases second
      rfl
    | done _ | await _ _ =>
      rw [program] at second
      cases second
  · refine ((locks_own reached).2.2 fun caller => ?_).1 .readerLocks
    match caller with
    | 0 => rw [first]; rfl
    | 1 => rw [second]; rfl
    | 2 => rw [third]; rfl

end WalletToolbox

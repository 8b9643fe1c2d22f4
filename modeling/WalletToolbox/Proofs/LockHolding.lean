import WalletToolbox.Async.Guarded
import WalletToolbox.Manager.WalletStorageManager

/-! What a call of the manager holds, and that it only ever does what it may with what
it holds: it pushes an entry it does not have, awaits its own promise, releases what it
has got, and runs its callback inside its section. -/

namespace WalletToolbox
open Async WalletStorageManager
open LockManager (exec)

/-- The lock entries of one call: those it has pushed and not released, those whose
promise it has awaited, and whether it is counted among the shared action writers. -/
structure Holding where
  entry : LockQueue → Option Nat
  locked : LockQueue → Bool
  counted : Bool

def Holding.nothing : Holding := ⟨fun _ => none, fun _ => false, false⟩

def Holding.next (holding : Holding) : Event lockManager → Holding
  | ⟨.ask _, _⟩ => holding
  | ⟨.push queue, promise⟩ => { holding with
      entry := Function.update holding.entry queue (some promise), locked := Function.update holding.locked queue false }
  | ⟨.lock queue _, _⟩ => { holding with locked := Function.update holding.locked queue true }
  | ⟨.getActionWriterSharedLock, none⟩ => { holding with counted := true }
  | ⟨.getActionWriterSharedLock, some promise⟩ =>
    { holding with entry := Function.update holding.entry .actionWriterSharedLocks (some promise) }
  | ⟨.countShared _, _⟩ => { holding with entry := Function.update holding.entry .actionWriterSharedLocks none, counted := true }
  | ⟨.releaseActionWriterSharedLock, _⟩ => { holding with counted := false }
  | ⟨.release queues, _⟩ => { holding with
      entry := fun queue => if queue ∈ queues then none else holding.entry queue
      locked := fun queue => if queue ∈ queues then false else holding.locked queue }

def holding (past : List (Event lockManager)) : Holding := past.foldl Holding.next .nothing

@[simp] theorem holding_append (past) (event) :
    holding (past ++ [event]) = (holding past).next event := by simp [holding]

/-- What a call holds while its callback runs. -/
def RunAs.InSection : RunAs → Holding → Prop
  | .reader, holding => holding.locked .readerLocks = true
  | .writer, holding => holding.locked .actionWriterExclusiveLocks = true ∧ holding.locked .readerLocks = true
  | .actionWriter, holding => holding.counted = true ∨
      holding.locked .actionWriterExclusiveLocks = true ∧ holding.locked .readerLocks = true
  | .sync, holding | .storageProvider, holding => holding.locked .readerLocks = true ∧ holding.locked .syncLocks = true

def Holding.Missed (holding : Holding) (available : Bool) (queue : LockQueue) : Prop :=
  holding.entry queue = none ∧ holding.locked queue = false ∧ queue ≠ .actionWriterExclusiveLocks ∧ available = false

def Holding.May (call : RunAs) (available : Bool) (holding : Holding) : LockOp → Prop
  | .ask .callback => call.InSection holding
  | .ask _ => True
  | .push queue => holding.entry queue = none ∧ holding.locked queue = false ∧ queue ≠ .actionWriterSharedLocks
  | .lock queue promise => holding.entry queue = some promise ∧ queue ≠ .actionWriterSharedLocks
  | .getActionWriterSharedLock => holding.entry .actionWriterSharedLocks = none ∧ holding.counted = false
  | .countShared promise => holding.entry .actionWriterSharedLocks = some promise ∧ holding.counted = false
  | .releaseActionWriterSharedLock => holding.counted = true
  | .release queues => queues.Nodup ∧ .actionWriterSharedLocks ∉ queues ∧
      ∀ queue ∈ queues, holding.locked queue = true ∨ holding.Missed available queue

structure Holding.Only (queues : List LockQueue) (holding : Holding) : Prop where
  locked : ∀ queue ∈ queues, holding.locked queue = true
  others : ∀ queue, queue ∉ queues → holding.entry queue = none ∧ holding.locked queue = false
  counted : holding.counted = false

/-- No more than the locks of `queues`; one is missing only after a failure. -/
structure Holding.Within (available : Bool) (queues : List LockQueue) (holding : Holding) : Prop where
  each : ∀ queue ∈ queues, holding.locked queue = true ∨ holding.Missed available queue
  others : ∀ queue, queue ∉ queues → holding.entry queue = none ∧ holding.locked queue = false
  counted : holding.counted = false

theorem Holding.Only.within {holding : Holding} (only : holding.Only queues) (available : Bool) :
    holding.Within available queues where
  each := fun queue member => .inl (only.locked queue member)
  others := only.others
  counted := only.counted

theorem Holding.Within.widen {holding : Holding} (within : holding.Within available queues)
    (failed : available = false) (more : ∀ queue ∈ queues, queue ∈ wider)
    (exclusive : .actionWriterExclusiveLocks ∈ wider → .actionWriterExclusiveLocks ∈ queues) : holding.Within available wider where
  each := by
    intro queue member
    by_cases known : queue ∈ queues
    · exact within.each queue known
    · obtain ⟨entry, locked⟩ := within.others queue known
      refine .inr ⟨entry, locked, ?_, failed⟩
      rintro rfl
      exact known (exclusive member)
  others := fun queue absent => within.others queue fun known => absent (more queue known)
  counted := within.counted

theorem Holding.Only.acquired {holding : Holding} (only : holding.Only queues)
    (promise : Nat) :
    ((holding.next ⟨.push queue, promise⟩).next ⟨.lock queue promise, ()⟩).Only (queue :: queues) := by
  refine ⟨fun other member => ?_, fun other absent => ?_, only.counted⟩
  · by_cases here : other = queue
    · rw [here]
      exact Function.update_self _ _ _
    · rw [List.mem_cons, or_iff_right here] at member
      simp only [Holding.next, Function.update_of_ne here]
      exact only.locked other member
  · rw [List.mem_cons, not_or] at absent
    obtain ⟨here, absent⟩ := absent
    simp only [Holding.next, Function.update_of_ne here]
    exact only.others other absent

def lockContract (call : RunAs) (available : Bool) : Contract lockManager LockManager where
  rely _ _ after := after.isAvailable = available
  permitted _ _ _ := True
  promises past op _ := (holding past).May call available op

def Freed (past : List (Event lockManager)) (_ : Except RunAsError Unit) (_ : LockManager) : Prop := (holding past).Only []

section
variable {call : RunAs} {available : Bool} {past : List (Event lockManager)} {manager : LockManager} {queues all : List LockQueue}

abbrev Body (call : RunAs) (available : Bool) (all : List LockQueue) (program : ManagerM Unit) (past : List (Event lockManager))
    (manager : LockManager) : Prop :=
  program.Guarded exec (lockContract call available) (fun more _ _ => (holding more).Within available all) past manager

theorem getActiveLock_then {queue : LockQueue} {rest : ManagerM Unit} (only : (holding past).Only queues)
    (next : ∀ more after, (holding more).Only (queue :: queues) → Body call available all rest more after) (new : queue ∉ queues := by decide)
    (proper : queue ≠ .actionWriterSharedLocks := by decide) (inside : ∀ other ∈ queue :: queues, other ∈ all := by decide)
    (exclusive : .actionWriterExclusiveLocks ∈ all → .actionWriterExclusiveLocks ∈ queues := by decide) :
    Body call available all (getActiveLock queue >>= fun _ => rest) past manager := by
  have pushes : ∀ before current, holding before = holding past →
      Body call available all ((locking (.push queue) >>= fun promise => locking (.lock queue promise)) >>= fun _ => rest) before current := by
    intro before current same now relied _
    obtain ⟨entry, locked⟩ := only.others queue new
    refine ⟨?_, fun later relied _ => ⟨?_, next _ _ ?_⟩⟩
    · show (holding before).May call available (.push queue)
      rw [same]
      exact ⟨entry, locked, proper⟩
    · refine ⟨?_, proper⟩
      rw [holding_append]
      exact Function.update_self _ _ _
    · rw [holding_append, holding_append, same]
      exact only.acquired _
  intro now relied _
  refine ⟨trivial, ?_⟩
  have still : holding (past ++ [⟨.ask .isAvailable, (exec (.ask .isAvailable) now).1⟩]) = holding past := holding_append _ _
  cases replied : (exec (.ask .isAvailable) now).1 with
  | true =>
    rw [replied] at still
    exact pushes _ _ still
  | false =>
    have failed : available = false := by
      rw [← relied]
      by_contra throughout
      rw [Bool.not_eq_false] at throughout
      have told : (exec (.ask .isAvailable) now).1 = true := by
        simp [exec, LockManager.ask, throughout]
      rw [told] at replied
      cases replied
    rw [replied] at still
    intro later _ _
    refine ⟨trivial, ?_⟩
    cases made : (exec (.ask .makeAvailable) later).1 with
    | true => exact pushes _ _ ((holding_append _ _).trans still)
    | false =>
      show (holding _).Within available all
      have stopped : holding (past ++ [⟨.ask .isAvailable, false⟩] ++ [⟨.ask .makeAvailable, false⟩]) = holding past :=
        (holding_append _ _).trans still
      rw [stopped]
      exact (only.within available).widen failed (fun other member => inside other (.tail _ member)) exclusive

theorem getActive_then {rest : ManagerM Unit} (only : (holding past).Only queues)
    (next : ∀ more after, (holding more).Only queues → Body call available queues rest more after) :
    Body call available queues (getActive >>= fun _ => rest) past manager := by
  intro now _ _
  refine ⟨trivial, ?_⟩
  have still : holding (past ++ [⟨.ask .verifyActive, (exec (.ask .verifyActive) now).1⟩]) = holding past := holding_append _ _
  cases found : (exec (.ask .verifyActive) now).1 with
  | true =>
    rw [found] at still
    exact next _ _ (still ▸ only)
  | false =>
    show (holding _).Within available queues
    rw [found] at still
    rw [still]
    exact only.within available

theorem callback_body (only : (holding past).Only queues) (inside : ∀ holding : Holding, holding.Only queues → call.InSection holding) :
    Body call available queues callback past manager := by
  intro now _ _
  refine ⟨inside _ only, ?_⟩
  have still : holding (past ++ [⟨.ask .callback, (exec (.ask .callback) now).1⟩]) = holding past := holding_append _ _
  cases settled : (exec (.ask .callback) now).1 with
  | true | false =>
    show (holding _).Within available queues
    rw [settled] at still
    rw [still]
    exact only.within available

theorem release_guarded (queues) (distinct : released.Nodup)
    (proper : .actionWriterSharedLocks ∉ released) (all : ∀ queue, queue ∈ released ↔ queue ∈ queues)
    (acquires : Body call available queues body past manager) :
    (Program.ensuring body (release released)).Guarded exec (lockContract call available) Freed past manager := by
  refine Program.Guarded.bind (Program.Guarded.settle (acquires.mono fun more outcome after within => ?_))
  intro now _ _
  refine ⟨⟨distinct, proper, fun queue member => within.each queue ((all queue).mp member)⟩, ?_⟩
  have freed : (holding (more ++ [⟨.release released, ()⟩])).Only [] := by
    rw [holding_append]
    refine ⟨fun queue none => (List.not_mem_nil none).elim, fun queue _ => ?_, within.counted⟩
    by_cases member : queue ∈ released
    · simp [Holding.next, member]
    · simp only [Holding.next, if_neg member]
      exact within.others queue fun had => member ((all queue).mpr had)
  cases outcome with
  | ok _ => exact freed
  | error _ => exact freed

section
variable (only : (holding past).Only [])
include only

theorem runAsReader_guarded :
    runAsReader.Guarded exec (lockContract .reader available) Freed past manager := by
  refine release_guarded [.readerLocks] (by decide) (by decide) (by simp) ?_
  simp only [getActiveForReader, bind_assoc]
  refine getActiveLock_then only fun more after reader => ?_
  exact getActive_then reader fun more after all => callback_body all fun _ held => held.locked _ (by decide)

theorem runAsSync_guarded :
    runAsSync.Guarded exec (lockContract .sync available) Freed past manager := by
  refine release_guarded [.syncLocks, .writerLocks, .readerLocks] (by decide) (by decide) (fun _ => Iff.rfl) ?_
  simp only [getActiveForSync, bind_assoc]
  refine getActiveLock_then only fun more after reader => ?_
  refine getActiveLock_then reader fun more after writer => ?_
  refine getActiveLock_then writer fun more after sync => ?_
  exact getActive_then sync fun more after all => callback_body all fun _ held => ⟨held.locked _ (by decide), held.locked _ (by decide)⟩

theorem runAsStorageProvider_guarded :
    runAsStorageProvider.Guarded exec (lockContract .storageProvider available) Freed past manager := by
  refine release_guarded [.spLocks, .syncLocks, .writerLocks, .readerLocks] (by decide) (by decide) (fun _ => Iff.rfl) ?_
  simp only [getActiveForStorageProvider, bind_assoc]
  refine getActiveLock_then only fun more after reader => ?_
  refine getActiveLock_then reader fun more after writer => ?_
  refine getActiveLock_then writer fun more after sync => ?_
  refine getActiveLock_then sync fun more after provider => ?_
  refine getActive_then provider fun more after all => ?_
  intro now _ _
  refine ⟨trivial, ?_⟩
  have still : holding (more ++ [⟨.ask .isStorageProvider, (exec (.ask .isStorageProvider) now).1⟩]) = holding more := holding_append _ _
  cases supports : (exec (.ask .isStorageProvider) now).1 with
  | true =>
    rw [supports] at still
    exact callback_body (still ▸ all) fun _ held => ⟨held.locked _ (by decide), held.locked _ (by decide)⟩
  | false =>
    show (holding _).Within available _
    rw [supports] at still
    rw [still]
    exact all.within available

abbrev writerQueues : List LockQueue := [.writerLocks, .readerLocks, .actionWriterExclusiveLocks]

theorem runAsWriter_guarded (inside : ∀ holding : Holding, holding.Only writerQueues → call.InSection holding) :
    runAsWriter.Guarded exec (lockContract call available) Freed past manager := by
  intro now _ _
  obtain ⟨entry, locked⟩ := only.others .actionWriterExclusiveLocks (by decide)
  refine ⟨⟨entry, locked, by decide⟩, fun later _ _ => ⟨?_, ?_⟩⟩
  · refine ⟨?_, by decide⟩
    rw [holding_append]
    simp [Holding.next]
  refine release_guarded writerQueues (by decide) (by decide) (fun _ => Iff.rfl) ?_
  have exclusive : (holding (past ++ [⟨.push .actionWriterExclusiveLocks, (exec (.push .actionWriterExclusiveLocks) now).1⟩] ++
      [⟨.lock .actionWriterExclusiveLocks (exec (.push .actionWriterExclusiveLocks) now).1, ()⟩])).Only [.actionWriterExclusiveLocks] := by
    rw [holding_append, holding_append]
    exact only.acquired _
  simp only [getActiveForWriter, bind_assoc]
  refine getActiveLock_then exclusive fun more after reader => ?_
  refine getActiveLock_then reader fun more after writer => ?_
  exact getActive_then writer fun more after all => callback_body all inside

theorem runAsActionWriter_guarded :
    runAsActionWriter.Guarded exec (lockContract .actionWriter available) Freed past manager := by
  have fallsBack : ∀ more after, (holding more).Only [] →
      runAsWriter.Guarded exec (lockContract .actionWriter available) Freed more after :=
    fun more after none => runAsWriter_guarded none fun _ held => .inr ⟨held.locked _ (by decide), held.locked _ (by decide)⟩
  -- counted among the shared action writers, and nothing else
  have shares : ∀ more after, (holding more).counted = true → (∀ queue, (holding more).entry queue = none ∧ (holding more).locked queue = false) →
      (ask .concurrentActionWriter >>= fun concurrent =>
        if !concurrent then locking .releaseActionWriterSharedLock >>= fun _ => runAsWriter
        else Program.ensuring callback (locking .releaseActionWriterSharedLock)).Guarded exec
          (lockContract .actionWriter available) Freed more after := by
    intro more after counted others now _ _
    refine ⟨trivial, ?_⟩
    have releases : ∀ last, holding last = holding more → (holding (last ++ [⟨.releaseActionWriterSharedLock, ()⟩])).Only [] := by
      intro last same
      rw [holding_append, same]
      exact ⟨fun queue none => (List.not_mem_nil none).elim, fun queue _ => others queue, rfl⟩
    have still : holding (more ++ [⟨.ask .concurrentActionWriter, (exec (.ask .concurrentActionWriter) now).1⟩]) = holding more :=
      holding_append _ _
    cases concurrent : (exec (.ask .concurrentActionWriter) now).1 with
    | false =>
      rw [concurrent] at still
      intro later _ _
      refine ⟨?_, fallsBack _ _ (releases _ still)⟩
      show (holding _).counted = true
      rw [still]
      exact counted
    | true =>
      rw [concurrent] at still
      intro later _ _
      refine ⟨?_, ?_⟩
      · show RunAs.InSection .actionWriter (holding _)
        rw [still]
        exact .inl counted
      have settled : holding (more ++ [⟨.ask .concurrentActionWriter, true⟩] ++
          [⟨.ask .callback, (exec (.ask .callback) later).1⟩]) = holding more := (holding_append _ _).trans still
      cases answered : (exec (.ask .callback) later).1 with
      | true | false =>
        rw [answered] at settled
        intro last _ _
        refine ⟨?_, releases _ settled⟩
        show (holding _).counted = true
        rw [settled]
        exact counted
  intro now _ _
  refine ⟨trivial, ?_⟩
  have still : holding (past ++ [⟨.ask .concurrentActionWriter, (exec (.ask .concurrentActionWriter) now).1⟩]) = holding past :=
    holding_append _ _
  cases concurrent : (exec (.ask .concurrentActionWriter) now).1 with
  | false =>
    rw [concurrent] at still
    exact fallsBack _ _ (still ▸ only)
  | true =>
    rw [concurrent] at still
    intro later _ _
    have idle : ∀ queue, (holding past).entry queue = none ∧ (holding past).locked queue = false := fun queue =>
      only.others queue List.not_mem_nil
    refine ⟨?_, ?_⟩
    · show (holding _).entry _ = none ∧ (holding _).counted = false
      rw [still]
      exact ⟨(idle _).1, only.counted⟩
    cases granted : (exec .getActionWriterSharedLock later).1 with
    | none =>
      refine shares _ _ ?_ ?_
      · rw [holding_append]
        rfl
      · rw [holding_append, still]
        exact idle
    | some promise =>
      have queued := holding_append (past ++ [⟨.ask .concurrentActionWriter, true⟩]) ⟨.getActionWriterSharedLock, some promise⟩
      rw [still] at queued
      intro last _ _
      refine ⟨?_, ?_⟩
      · show (holding _).entry _ = some promise ∧ (holding _).counted = false
        rw [queued]
        exact ⟨by simp [Holding.next], only.counted⟩
      refine shares _ _ ?_ ?_
      · rw [holding_append]
        rfl
      · rw [holding_append, queued]
        intro queue
        refine ⟨?_, (idle queue).2⟩
        by_cases shared : queue = .actionWriterSharedLocks
        · simp [Holding.next, shared]
        · simp only [Holding.next, Function.update_of_ne shared]
          exact (idle queue).1

end

theorem runAs_guarded (call : RunAs) (available : Bool) (manager) :
    call.program.Guarded exec (lockContract call available) Freed [] manager := by
  have nothing : (holding []).Only [] := ⟨fun _ none => (List.not_mem_nil none).elim, fun _ _ => ⟨rfl, rfl⟩, rfl⟩
  cases call with
  | reader => exact runAsReader_guarded nothing
  | writer => exact runAsWriter_guarded nothing fun _ held => ⟨held.locked _ (by decide), held.locked _ (by decide)⟩
  | actionWriter => exact runAsActionWriter_guarded nothing
  | sync => exact runAsSync_guarded nothing
  | storageProvider => exact runAsStorageProvider_guarded nothing

end
end WalletToolbox

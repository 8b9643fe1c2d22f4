import WalletToolbox.Proofs.ManagerAccess

/-! Access is exclusive where the locks are. Readers, writers, syncs and storage
provider calls all queue for the reader lock, and writers keep the shared action
writers out. Syncs and storage provider calls do not. -/

namespace WalletToolbox
open Async
open LockManager (enqueue_locks_ne enqueue_locks_self exec wakeHead)
open Function (update_of_ne update_self)

section
variable {ι : Type}

def Active (pool : ManagerPool ι) (caller : ι) : Prop := ∃ next, (pool.task caller).program = .await (.ask .callback) next

def NoneWoken (manager : LockManager) (held : ι → Holding) : Prop :=
  ∀ caller promise, (held caller).entry .actionWriterSharedLocks = some promise → manager.resolved promise = false

/-- No lock is given away while another that it does not go with is held: the sync lock
and the shared action writer lock, or the exclusive one while a shared waiter that was
woken is not counted yet. -/
def GivenApart (manager : LockManager) (held : ι → Holding) : LockOp → Prop
  | .lock .syncLocks _ => manager.actionWriterSharedCount = 0
  | .getActionWriterSharedLock =>
    manager.locks .actionWriterExclusiveLocks = [] → ∀ other, (held other).locked .syncLocks = false
  | .countShared _ => ∀ other, (held other).locked .syncLocks = false
  | .push .actionWriterExclusiveLocks =>
    manager.locks .actionWriterExclusiveLocks = [] → manager.actionWriterSharedCount = 0 → NoneWoken manager held
  | .releaseActionWriterSharedLock =>
    manager.locks .actionWriterExclusiveLocks ≠ [] → manager.actionWriterSharedCount = 1 → NoneWoken manager held
  | _ => True

def LocksApart (pool : ManagerPool ι) (caller : ι) : Prop :=
  ∀ op next, (pool.task caller).program = .await op next → GivenApart pool.store (LocksOf pool) op

structure SharesAlone (manager : LockManager) (held : ι → Holding) : Prop where
  exclusive : ∀ promise ∈ manager.locks .actionWriterExclusiveLocks, manager.resolved promise = true →
    ∀ caller, (held caller).counted = false ∧
      ∀ waiting, (held caller).entry .actionWriterSharedLocks = some waiting → manager.resolved waiting = false
  sync : ∀ caller other, (held caller).locked .syncLocks = true → (held other).counted = false

section
variable {manager : LockManager} {held : ι → Holding} {caller : ι}

theorem QueuesKept.count_eq_zero (kept : QueuesKept manager held) :
    manager.actionWriterSharedCount = 0 ↔ ∀ caller, (held caller).counted = false := by
  obtain ⟨sharing, members, size⟩ := kept.counted
  rw [← size, Finset.card_eq_zero, Finset.eq_empty_iff_forall_notMem]
  simp only [members, Bool.not_eq_true]

theorem QueuesKept.waiting_apart (kept : QueuesKept manager held) {waiting promise queue}
    (waits : (held caller).entry .actionWriterSharedLocks = some waiting) (member : promise ∈ manager.locks queue)
    (proper : queue ≠ .actionWriterSharedLocks) : waiting ≠ promise := by
  rintro rfl
  obtain ⟨owner, entry⟩ := kept.owned queue waiting member
  exact proper (kept.apart owner caller queue .actionWriterSharedLocks waiting entry waits).2

theorem LockManager.wakeHead_resolved (woken : (manager.wakeHead queue).resolved promise = true) :
    manager.resolved promise = true ∨ promise ∈ manager.locks queue := by
  unfold wakeHead at woken
  cases entries : manager.locks queue with
  | nil =>
    rw [entries] at woken
    exact .inl woken
  | cons head rest =>
    rw [entries] at woken
    rcases (manager.resolve_resolved head promise).mp woken with rfl | before
    · exact .inr (.head _)
    · exact .inl before

theorem QueuesKept.waits_still (kept : QueuesKept manager held) (proper : queue ≠ .actionWriterSharedLocks) {waiting}
    (waits : (held caller).entry .actionWriterSharedLocks = some waiting) (unresolved : manager.resolved waiting = false) :
    (manager.wakeHead queue).resolved waiting = false := by
  rw [← Bool.not_eq_true]
  intro woken
  rcases LockManager.wakeHead_resolved woken with before | member
  · rw [unresolved] at before
    cases before
  · exact kept.waiting_apart waits member proper rfl

variable [DecidableEq ι]

theorem SharesAlone.releaseQueue (alone : SharesAlone manager held) (kept : QueuesKept manager held) {queue}
    (mine : (held caller).locked queue = true) :
    SharesAlone (manager.releaseQueue queue) (Function.update held caller ((held caller).drop queue)) := by
  have proper := (kept.granted caller queue mine).1
  have shifted := kept.shift mine
  have waits : ∀ other waiting, (Function.update held caller ((held caller).drop queue) other).entry .actionWriterSharedLocks = some waiting →
      (held other).entry .actionWriterSharedLocks = some waiting := by
    intro other waiting has
    by_cases same : other = caller
    · subst same
      rw [update_self] at has
      simpa [Holding.drop, update_of_ne (Ne.symm proper)] using has
    · rwa [update_of_ne same] at has
  have counted : ∀ other, (Function.update held caller ((held caller).drop queue) other).counted = (held other).counted := by
    intro other
    by_cases same : other = caller
    · subst same
      rw [update_self]
      rfl
    · rw [update_of_ne same]
  refine ⟨fun promise member woken other => ?_, fun other third has => ?_⟩
  · rw [counted]
    by_cases exclusive : queue = .actionWriterExclusiveLocks
    · subst exclusive
      obtain ⟨-, first, entry, resolved⟩ := kept.granted caller _ mine
      have queued := (kept.kept caller _ first entry).resolve_right fun shared => proper shared.1
      have nobody := alone.exclusive first queued resolved
      have zero := kept.count_eq_zero.mpr fun caller => (nobody caller).1
      refine ⟨(nobody other).1, fun waiting has => ?_⟩
      have unresolved := (nobody other).2 waiting (waits other waiting has)
      rw [LockManager.releaseQueue, if_pos rfl] at member woken ⊢
      unfold LockManager.releaseActionWriterExclusiveLock at member woken ⊢
      dsimp only at member woken ⊢
      split at member
      · next more =>
        rw [if_pos more]
        rw [LockManager.setQueue_count, if_pos zero]
        exact shifted.waits_still proper has unresolved
      · next none =>
        rw [LockManager.resolveAll_locks, LockManager.setQueue_locks_ne _ _ _ (by decide), not_not.mp none] at member
        cases member
    · rw [LockManager.releaseQueue_others (Ne.symm exclusive) (by decide)] at member
      rw [LockManager.releaseQueue, if_neg exclusive, LockManager.releaseActiveLock] at woken ⊢
      have before : manager.resolved promise = true := by
        rcases LockManager.wakeHead_resolved woken with before | also
        · exact before
        · rw [LockManager.setQueue_locks_self] at also
          exact absurd (kept.queued_once (List.mem_of_mem_tail also) member) exclusive
      have nobody := alone.exclusive promise member before other
      exact ⟨nobody.1, fun waiting has => shifted.waits_still proper has (nobody.2 waiting (waits other waiting has))⟩
  · rw [counted]
    refine alone.sync other third ?_
    by_cases same : other = caller
    · subst same
      rw [update_self] at has
      by_cases here : queue = .syncLocks
      · simp [Holding.drop, here] at has
      · simpa [Holding.drop, update_of_ne (Ne.symm here)] using has
    · rwa [update_of_ne same] at has

theorem SharesAlone.release (alone : SharesAlone manager held) (kept : QueuesKept manager held) {queues}
    (distinct : queues.Nodup) (each : ∀ queue ∈ queues, (held caller).locked queue = true) :
    SharesAlone (queues.foldl LockManager.releaseQueue manager) (Function.update held caller ((held caller).next ⟨.release queues, ()⟩)) := by
  rw [← Holding.foldl_drop]
  induction queues generalizing manager held with
  | nil => simpa using alone
  | cons queue rest ih =>
    rw [List.nodup_cons] at distinct
    have mine := each queue (.head _)
    have next := ih (alone.releaseQueue kept mine) (kept.releaseQueue mine) distinct.2 fun other member => ?_
    · rwa [update_self, Function.update_idem] at next
    · have different : other ≠ queue := fun same => distinct.1 (same ▸ member)
      rw [update_self]
      simp only [Holding.drop, update_of_ne different]
      exact each other (.tail _ member)

theorem LockManager.push_locks (queue) : (manager.push queue).locks = (manager.enqueue queue).locks := by
  unfold LockManager.push
  dsimp only
  split <;> rfl

theorem LockManager.push_resolved (woken : (manager.push queue).resolved promise = true) :
    manager.resolved promise = true ∨ promise = manager.nextPromise ∧ manager.locks queue = [] ∧
      (queue = .actionWriterExclusiveLocks → manager.actionWriterSharedCount = 0) := by
  unfold LockManager.push at woken
  dsimp only at woken
  split at woken
  · next alone =>
    obtain ⟨length, free⟩ := alone
    rw [enqueue_locks_self, List.length_append, List.length_singleton] at length
    rcases ((manager.enqueue queue).resolve_resolved manager.nextPromise promise).mp woken with same | before
    · exact .inr ⟨same, List.length_eq_zero_iff.mp (by omega), free⟩
    · exact .inl before
  · exact .inl woken

theorem SharesAlone.update (alone : SharesAlone manager held)
    (waits : ∀ waiting, after.entry .actionWriterSharedLocks = some waiting → later.resolved waiting = true →
      (held caller).entry .actionWriterSharedLocks = some waiting ∧ manager.resolved waiting = true)
    (others : ∀ other waiting, (held other).entry .actionWriterSharedLocks = some waiting → later.resolved waiting = true →
      manager.resolved waiting = true)
    (counted : after.counted = true → (held caller).counted = true)
    (locked : after.locked .syncLocks = true → (held caller).locked .syncLocks = true)
    (woken : ∀ promise ∈ later.locks .actionWriterExclusiveLocks, later.resolved promise = true →
      promise ∈ manager.locks .actionWriterExclusiveLocks ∧ manager.resolved promise = true) :
    SharesAlone later (Function.update held caller after) := by
  refine ⟨fun promise member now other => ?_, fun other third has => ?_⟩
  · obtain ⟨was, before⟩ := woken promise member now
    obtain ⟨uncounted, unresolved⟩ := alone.exclusive promise was before other
    by_cases same : other = caller
    · subst same
      rw [update_self]
      refine ⟨?_, fun waiting has => ?_⟩
      · rw [← Bool.not_eq_true] at uncounted ⊢
        exact fun is => uncounted (counted is)
      · rw [← Bool.not_eq_true]
        intro is
        obtain ⟨had, resolved⟩ := waits waiting has is
        rw [unresolved waiting had] at resolved
        cases resolved
    · rw [update_of_ne same]
      refine ⟨uncounted, fun waiting has => ?_⟩
      rw [← Bool.not_eq_true]
      intro is
      have resolved := others other waiting has is
      rw [unresolved waiting has] at resolved
      cases resolved
  · have mine : (held other).locked .syncLocks = true := by
      by_cases same : other = caller
      · subst same
        rw [update_self] at has
        exact locked has
      · rwa [update_of_ne same] at has
    have uncounted := alone.sync other third mine
    by_cases same : third = caller
    · subst same
      rw [update_self, ← Bool.not_eq_true]
      intro is
      rw [counted is] at uncounted
      cases uncounted
    · rwa [update_of_ne same]

theorem SharesAlone.step (alone : SharesAlone manager held) (kept : QueuesKept manager held) {call op}
    (may : (held caller).May call true op)
    (ready : ∀ promise, (∃ queue, op = .lock queue promise) ∨ op = .countShared promise → manager.resolved promise = true)
    (apart : GivenApart manager held op) :
    SharesAlone (exec op manager).2 (Function.update held caller ((held caller).next ⟨op, (exec op manager).1⟩)) := by
  cases op with
  | ask question =>
    have same : Function.update held caller ((held caller).next ⟨.ask question, (exec (.ask question) manager).1⟩) = held :=
      Function.update_eq_self caller held
    rw [same]
    simp only [exec, LockManager.ask]
    split
    · exact alone
    · exact ⟨alone.exclusive, alone.sync⟩
  | release queues =>
    refine alone.release kept may.1 fun queue member => (may.2.2 queue member).resolve_right fun missed => ?_
    cases missed.2.2.2
  | lock queue promise =>
    have entries : ∀ other, (Function.update held caller ((held caller).next ⟨.lock queue promise, ()⟩) other).entry = (held other).entry ∧
        (Function.update held caller ((held caller).next ⟨.lock queue promise, ()⟩) other).counted = (held other).counted := by
      intro other
      by_cases same : other = caller
      · subst same
        rw [update_self]
        exact ⟨rfl, rfl⟩
      · rw [update_of_ne same]
        exact ⟨rfl, rfl⟩
    refine ⟨fun first member woken other => ?_, fun other third has => ?_⟩
    · obtain ⟨counted, waits⟩ := alone.exclusive first member woken other
      exact ⟨(entries other).2.trans counted, fun waiting has => waits waiting ((entries other).1 ▸ has)⟩
    · refine (entries third).2.trans ?_
      by_cases sync : queue = .syncLocks
      · subst sync
        exact kept.count_eq_zero.mp apart third
      · refine alone.sync other third ?_
        by_cases same : other = caller
        · subst same
          rw [update_self] at has
          simpa [Holding.next, update_of_ne (Ne.symm sync)] using has
        · rwa [update_of_ne same] at has
  | push queue =>
    have new : ∀ other waiting, (held other).entry .actionWriterSharedLocks = some waiting → (manager.push queue).resolved waiting = true →
        manager.resolved waiting = true := by
      intro other waiting has woken
      rcases LockManager.push_resolved woken with before | ⟨rfl, -⟩
      · exact before
      · exact absurd (kept.known other _ _ has) (lt_irrefl _)
    have waits : ∀ waiting, ((held caller).next ⟨.push queue, manager.nextPromise⟩).entry .actionWriterSharedLocks = some waiting →
        (held caller).entry .actionWriterSharedLocks = some waiting := by
      intro waiting has
      simpa [Holding.next, update_of_ne (Ne.symm may.2.2)] using has
    by_cases exclusive : queue = .actionWriterExclusiveLocks ∧ manager.locks .actionWriterExclusiveLocks = [] ∧ manager.actionWriterSharedCount = 0
    · obtain ⟨rfl, empty, zero⟩ := exclusive
      have unwoken : NoneWoken manager held := apart empty zero
      have nobody := kept.count_eq_zero.mp zero
      refine ⟨fun promise member woken other => ?_, fun other third has => ?_⟩
      · by_cases same : other = caller
        · subst same
          rw [update_self]
          refine ⟨nobody other, fun waiting has => ?_⟩
          rw [← Bool.not_eq_true]
          intro is
          have before := new other waiting (waits waiting has) is
          rw [unwoken other waiting (waits waiting has)] at before
          cases before
        · rw [update_of_ne same]
          refine ⟨nobody other, fun waiting has => ?_⟩
          rw [← Bool.not_eq_true]
          intro is
          have before := new other waiting has is
          rw [unwoken other waiting has] at before
          cases before
      · by_cases same : third = caller
        · subst same
          rw [update_self]
          exact nobody third
        · rw [update_of_ne same]
          exact nobody third
    · refine alone.update (fun waiting has is => ⟨waits waiting has, new caller waiting (waits waiting has) is⟩) new id (fun has => ?_)
        fun promise member woken => ?_
      · by_cases sync : queue = .syncLocks
        · subst sync
          simp [Holding.next] at has
        · simpa [Holding.next, update_of_ne (Ne.symm sync)] using has
      · have after : (exec (.push queue) manager).2.locks = (manager.enqueue queue).locks := LockManager.push_locks queue
        rw [after] at member
        rcases LockManager.push_resolved woken with before | ⟨rfl, empty, free⟩
        · refine ⟨?_, before⟩
          by_cases mine : queue = .actionWriterExclusiveLocks
          · subst mine
            rw [enqueue_locks_self, List.mem_append, List.mem_singleton] at member
            refine member.resolve_right ?_
            rintro rfl
            exact absurd (kept.fresh _ before) (lt_irrefl _)
          · rwa [enqueue_locks_ne _ _ (Ne.symm mine)] at member
        · by_cases mine : queue = .actionWriterExclusiveLocks
          · subst mine
            exact absurd ⟨rfl, empty, free rfl⟩ exclusive
          · rw [enqueue_locks_ne _ _ (Ne.symm mine)] at member
            exact absurd (kept.known_of_mem member) (lt_irrefl _)
  | getActionWriterSharedLock =>
    by_cases empty : manager.locks .actionWriterExclusiveLocks = []
    · have counts : exec .getActionWriterSharedLock manager =
          (none, { manager with actionWriterSharedCount := manager.actionWriterSharedCount + 1 }) := if_pos empty
      rw [counts]
      refine ⟨fun promise member => ?_, fun other third has => ?_⟩
      · rw [show manager.locks .actionWriterExclusiveLocks = [] from empty] at member
        cases member
      · have free := apart empty other
        by_cases same : other = caller
        · subst same
          rw [update_self] at has
          exact absurd has (by simp [Holding.next, free])
        · rw [update_of_ne same, free] at has
          cases has
    · have queues : exec .getActionWriterSharedLock manager =
          (some manager.nextPromise, manager.enqueue .actionWriterSharedLocks) := if_neg empty
      rw [queues]
      refine alone.update (fun waiting has woken => ?_) (fun _ _ _ woken => woken) id id fun promise member woken => ⟨?_, woken⟩
      · have is : waiting = manager.nextPromise := by simpa [Holding.next, eq_comm] using has
        exact absurd (is ▸ kept.fresh waiting woken) (lt_irrefl _)
      · rwa [enqueue_locks_ne _ _ (by decide)] at member
  | countShared promise =>
    have waited := ready promise (.inr rfl)
    refine ⟨fun first member woken => ?_, fun other third has => ?_⟩
    · have unresolved := (alone.exclusive first member woken caller).2 promise may.1
      rw [waited] at unresolved
      cases unresolved
    · have free := apart other
      by_cases same : other = caller
      · subst same
        rw [update_self] at has
        exact absurd has (by simp [Holding.next, free])
      · rw [update_of_ne same, free] at has
        cases has
  | releaseActionWriterSharedLock =>
    have counted : (held caller).counted = true := may
    have unresolved : ∀ promise ∈ manager.locks .actionWriterExclusiveLocks, manager.resolved promise ≠ true := by
      intro promise member woken
      rw [(alone.exclusive promise member woken caller).1] at counted
      cases counted
    have kept' := kept.uncount counted
    have sync : ∀ other, (held other).locked .syncLocks ≠ true := by
      intro other has
      rw [alone.sync other caller has] at counted
      cases counted
    have locked : ∀ other, (Function.update held caller ((held caller).next ⟨.releaseActionWriterSharedLock, ()⟩) other).locked .syncLocks ≠ true := by
      intro other
      by_cases same : other = caller
      · subst same
        rw [update_self]
        exact sync other
      · rw [update_of_ne same]
        exact sync other
    refine ⟨fun promise member woken other => ?_, fun other _ has => absurd has (locked other)⟩
    have after : exec .releaseActionWriterSharedLock manager = ((), manager.releaseActionWriterSharedLock) := rfl
    rw [after] at member woken ⊢
    by_cases last : manager.actionWriterSharedCount - 1 = 0
    · have released : manager.releaseActionWriterSharedLock =
          ({ manager with actionWriterSharedCount := manager.actionWriterSharedCount - 1 } : LockManager).wakeHead .actionWriterExclusiveLocks :=
        if_pos last
      have one : manager.actionWriterSharedCount = 1 := by
        have some : manager.actionWriterSharedCount ≠ 0 := fun zero => by
          rw [kept.count_eq_zero.mp zero caller] at counted
          cases counted
        omega
      have queued : promise ∈ manager.locks .actionWriterExclusiveLocks := by
        rw [released, LockManager.wakeHead_locks] at member
        exact member
      have unwoken : NoneWoken manager held := apart (List.ne_nil_of_mem queued) one
      have zero : manager.releaseActionWriterSharedLock.actionWriterSharedCount = 0 := by
        rw [released]
        unfold wakeHead
        split
        · exact last
        · exact last
      refine ⟨kept'.count_eq_zero.mp zero other, fun waiting has => ?_⟩
      have waits : (held other).entry .actionWriterSharedLocks = some waiting := by
        by_cases same : other = caller
        · subst same
          rwa [update_self] at has
        · rwa [update_of_ne same] at has
      rw [← Bool.not_eq_true, released]
      intro is
      rcases LockManager.wakeHead_resolved is with before | head
      · have still : manager.resolved waiting = true := before
        rw [unwoken other waiting waits] at still
        cases still
      · exact kept.waiting_apart waits head (by decide) rfl
    · have released : manager.releaseActionWriterSharedLock =
          { manager with actionWriterSharedCount := manager.actionWriterSharedCount - 1 } := if_neg last
      rw [released] at member woken
      exact absurd woken (unresolved promise member)

end

/-- The calls that are to be alone. -/
def RunAs.alone : RunAs → Bool
  | .writer | .sync | .storageProvider => true
  | .reader | .actionWriter => false

variable [DecidableEq ι] {calls : ι → RunAs} {answers : Nat → Bool} {pool : ManagerPool ι}

theorem releasesOwn_available
    (reached : Pool.Reaches exec allowed (startRunAs calls true answers) pool) (kept : QueuesKept pool.store (LocksOf pool)) (caller : ι) :
    ReleasesOwn pool caller := by
  intro queues next awaiting queue member entry
  rcases (runAs_may reached awaiting).2.2 queue member with locked | missed
  · obtain ⟨-, promise, has, -⟩ := kept.granted caller queue locked
    rw [entry] at has
    cases has
  · cases missed.2.2.2

section
variable (reached : Pool.Reaches exec (fun pool caller => Ready pool caller ∧ LocksApart pool caller) (startRunAs calls true answers) pool)
include reached

theorem alone_reaches : QueuesKept pool.store (LocksOf pool) ∧ SharesAlone pool.store (LocksOf pool) := by
  have step : ∀ (pool : ManagerPool ι) caller after,
      Pool.Reaches exec (fun pool caller => Ready pool caller ∧ LocksApart pool caller) (startRunAs calls true answers) pool →
      QueuesKept pool.store (LocksOf pool) ∧ SharesAlone pool.store (LocksOf pool) → Ready pool caller ∧ LocksApart pool caller →
      pool.advance exec caller = some after → QueuesKept after.store (LocksOf after) ∧ SharesAlone after.store (LocksOf after) := by
    intro pool caller after reached held permitted moves
    obtain ⟨kept, alone⟩ := held
    obtain ⟨ready, apart⟩ := permitted
    obtain ⟨op, next, awaiting, store, tasks⟩ := Pool.advance_cases moves
    have may := runAs_may reached awaiting
    have resolved : ∀ promise, (∃ queue, op = .lock queue promise) ∨ op = .countShared promise → pool.store.resolved promise = true := by
      intro promise waits
      have here := ready op next awaiting
      rcases waits with ⟨queue, rfl⟩ | rfl
      · exact here
      · exact here
    rw [store, locksOf_step tasks]
    refine ⟨kept.step may resolved fun queues is queue member entry => ?_, alone.step kept may resolved (apart op next awaiting)⟩
    subst is
    exact releasesOwn_available reached kept caller queues next awaiting queue member entry
  refine reached.invariant ⟨QueuesKept.new true answers, ?_⟩ step
  constructor
  · intro promise member
    cases member
  · intro caller other has
    cases has

theorem inSection (active : Active pool caller) : (calls caller).InSection (LocksOf pool caller) := by
  obtain ⟨next, awaiting⟩ := active
  exact runAs_may reached awaiting

end

/-- The callback of a writer, of a sync and of a storage provider call is alone, in every
run of an available manager in which no lock is given away while another that it does
not go with is held. -/
theorem access_exclusive (reached : Pool.Reaches LockManager.exec (fun pool caller => Ready pool caller ∧ LocksApart pool caller)
      (startRunAs calls true answers) pool) {first second : ι} (alone : (calls first).alone = true) (active : Active pool first)
    (differ : first ≠ second) : ¬ Active pool second := by
  intro also
  obtain ⟨kept, shares⟩ := alone_reaches reached
  have mine := inSection reached active
  have yours := inSection reached also
  have reads : (LocksOf pool first).locked .readerLocks = true := by
    cases call : calls first with
    | reader | actionWriter =>
      rw [call] at alone
      cases alone
    | writer =>
      rw [call] at mine
      exact mine.2
    | sync | storageProvider =>
      rw [call] at mine
      exact mine.1
  -- two that hold the reader lock are one
  have queues : (LocksOf pool second).locked .readerLocks ≠ true := fun has => differ (kept.holder reads has)
  have shared : (calls second) = .actionWriter ∧ (LocksOf pool second).counted = true := by
    cases call : calls second with
    | reader =>
      rw [call] at yours
      exact absurd yours queues
    | writer =>
      rw [call] at yours
      exact absurd yours.2 queues
    | sync | storageProvider =>
      rw [call] at yours
      exact absurd yours.1 queues
    | actionWriter =>
      rw [call] at yours
      rcases yours with counted | held
      · exact ⟨rfl, counted⟩
      · exact absurd held.2 queues
  have uncounted : (LocksOf pool second).counted = false := by
    cases call : calls first with
    | reader | actionWriter =>
      rw [call] at alone
      cases alone
    | writer =>
      rw [call] at mine
      obtain ⟨proper, promise, entry, woken⟩ := kept.granted first .actionWriterExclusiveLocks mine.1
      have queued := (kept.kept first _ promise entry).resolve_right fun waits => proper waits.1
      exact (shares.exclusive promise queued woken second).1
    | sync | storageProvider =>
      rw [call] at mine
      exact shares.sync first second mine.2
  rw [shared.2] at uncounted
  cases uncounted

end

/-! An action writer and a sync of one store that takes concurrent action writers. -/

def writerAndSync (sync : Bool) : RunAs := if sync then .sync else .actionWriter

def startWriterAndSync : ManagerPool Bool := startRunAs writerAndSync true fun _ => true

def activeNow {ι : Type} (pool : ManagerPool ι) (caller : ι) : Bool :=
  match (pool.task caller).program with
  | .await (.ask .callback) _ => true
  | _ => false

theorem activeNow_active (active : activeNow pool caller = true) : Active pool caller := by
  unfold activeNow at active
  cases program : (pool.task caller).program with
  | done _ | fail _ =>
    rw [program] at active
    cases active
  | await op next =>
    rw [program] at active
    match op with
    | .ask .callback => exact ⟨next, program⟩
    | .ask .isAvailable | .ask .makeAvailable | .ask .verifyActive | .ask .isStorageProvider | .ask .concurrentActionWriter => cases active
    | .push _ | .lock _ _ | .getActionWriterSharedLock | .countShared _ | .releaseActionWriterSharedLock | .release _ => cases active

/-- The sync gets all its locks while the action writer runs. -/
theorem access_shared :
    ∃ pool, Pool.Reaches LockManager.exec Ready startWriterAndSync pool ∧ Active pool false ∧ Active pool true := by
  have runs : (startWriterAndSync.followWhile LockManager.exec readyNow ([false, false, false] ++ List.replicate 10 true)).map
      (fun pool => (activeNow pool false, activeNow pool true)) = some (true, true) := by decide +kernel
  obtain ⟨pool, followed, active⟩ := Option.map_eq_some_iff.mp runs
  rw [Prod.mk.injEq] at active
  exact ⟨pool, Pool.reaches_followWhile readyNow_ready followed, activeNow_active active.1, activeNow_active active.2⟩

def apartNow (pool : ManagerPool Bool) (caller : Bool) : Bool :=
  match (pool.task caller).program with
  | .await (.lock .syncLocks _) _ => pool.store.actionWriterSharedCount = 0
  | .await .getActionWriterSharedLock _ => !(LocksOf pool true).locked .syncLocks && !(LocksOf pool false).locked .syncLocks
  | .await (.ask _) _ | .await (.release _) _ => true
  | .await (.push .readerLocks) _ | .await (.push .writerLocks) _ | .await (.push .syncLocks) _ => true
  | .await (.lock .readerLocks _) _ | .await (.lock .writerLocks _) _ => true
  | .await .releaseActionWriterSharedLock _ => (pool.store.locks .actionWriterExclusiveLocks).isEmpty
  | _ => false

theorem apartNow_apart (pool) (caller : Bool) (apart : apartNow pool caller = true) : LocksApart pool caller := by
  intro op next awaiting
  rw [apartNow, awaiting] at apart
  match op with
  | .lock .syncLocks _ =>
    have free := of_decide_eq_true apart
    exact free
  | .getActionWriterSharedLock =>
    rw [Bool.and_eq_true, Bool.not_eq_true', Bool.not_eq_true'] at apart
    intro _ other
    cases other with
    | true => exact apart.1
    | false => exact apart.2
  | .releaseActionWriterSharedLock =>
    intro queued
    exact absurd (List.isEmpty_iff.mp apart) queued
  | .ask _ | .release _ | .push .readerLocks | .push .writerLocks | .push .syncLocks | .push .spLocks | .push .actionWriterSharedLocks => trivial
  | .lock .readerLocks _ | .lock .writerLocks _ | .lock .spLocks _ | .lock .actionWriterExclusiveLocks _ | .lock .actionWriterSharedLocks _ => trivial
  | .push .actionWriterExclusiveLocks | .countShared _ => cases apart

theorem checked_apart (pool) (caller : Bool) (checked : (readyNow pool caller && apartNow pool caller) = true) :
    Ready pool caller ∧ LocksApart pool caller := by
  rw [Bool.and_eq_true] at checked
  exact ⟨readyNow_ready pool caller checked.1, apartNow_apart pool caller checked.2⟩

/-- The sync runs once the action writer is done. -/
theorem access_exclusive_after :
    ∃ pool, Pool.Reaches LockManager.exec (fun pool caller => Ready pool caller ∧ LocksApart pool caller) startWriterAndSync pool ∧
      Active pool true ∧ ¬ Active pool false := by
  have runs : (startWriterAndSync.followWhile LockManager.exec (fun pool caller => readyNow pool caller && apartNow pool caller)
      ([false, false, false, true, true, true, false, false] ++ List.replicate 7 true)).map (fun pool => activeNow pool true) =
      some true := by decide +kernel
  obtain ⟨pool, followed, active⟩ := Option.map_eq_some_iff.mp runs
  have reached := Pool.reaches_followWhile checked_apart followed
  have sync := activeNow_active active
  exact ⟨pool, reached, sync, access_exclusive reached rfl sync (by decide)⟩

end WalletToolbox

import WalletToolbox.Proofs.LockHolding
import Mathlib.Data.Finset.Card

/-! The lock queues against what the calls hold. Every entry belongs to one call, only
the head of a queue is ever resolved, and the shared count is the number of calls that
are counted. -/

namespace WalletToolbox
open Async
open Function (update_eq_self update_of_ne update_self)

namespace LockManager
variable (manager : LockManager) (queue : LockQueue) (entries : List Nat) (promise : Nat)

@[simp] theorem setQueue_resolved : (manager.setQueue queue entries).resolved = manager.resolved := rfl
@[simp] theorem setQueue_count : (manager.setQueue queue entries).actionWriterSharedCount = manager.actionWriterSharedCount := rfl
@[simp] theorem setQueue_locks_self : (manager.setQueue queue entries).locks queue = entries := update_self _ _ _

theorem resolve_resolved (other : Nat) : (manager.resolve promise).resolved other = true ↔ other = promise ∨ manager.resolved other = true := by
  by_cases same : other = promise
  · simp [resolve, same]
  · simp [resolve, same]

theorem setQueue_locks_ne (different : other ≠ queue) :
    (manager.setQueue queue entries).locks other = manager.locks other := update_of_ne different _ _

theorem enqueue_locks_self : (manager.enqueue queue).locks queue = manager.locks queue ++ [manager.nextPromise] := update_self _ _ _

theorem enqueue_locks_ne (different : other ≠ queue) : (manager.enqueue queue).locks other = manager.locks other :=
  update_of_ne different _ _

end LockManager

variable {ι : Type}

structure QueuesKept (manager : LockManager) (held : ι → Holding) : Prop where
  nodup : ∀ queue, (manager.locks queue).Nodup
  owned : ∀ queue promise, promise ∈ manager.locks queue → ∃ caller, (held caller).entry queue = some promise
  /-- An entry stays queued until its call releases it; a shared waiter until it is woken. -/
  kept : ∀ caller queue promise, (held caller).entry queue = some promise →
    promise ∈ manager.locks queue ∨ queue = .actionWriterSharedLocks ∧ manager.resolved promise = true
  apart : ∀ caller other queue second promise, (held caller).entry queue = some promise → (held other).entry second = some promise →
    caller = other ∧ queue = second
  known : ∀ caller queue promise, (held caller).entry queue = some promise → promise < manager.nextPromise
  fresh : ∀ promise, manager.resolved promise = true → promise < manager.nextPromise
  head : ∀ queue promise, queue ≠ .actionWriterSharedLocks → promise ∈ manager.locks queue → manager.resolved promise = true →
    (manager.locks queue).head? = some promise
  waiting : ∀ promise ∈ manager.locks .actionWriterSharedLocks, manager.resolved promise = false
  granted : ∀ caller queue, (held caller).locked queue = true → queue ≠ .actionWriterSharedLocks ∧
    ∃ promise, (held caller).entry queue = some promise ∧ manager.resolved promise = true
  counted : ∃ sharing : Finset ι, (∀ caller, caller ∈ sharing ↔ (held caller).counted = true) ∧ sharing.card = manager.actionWriterSharedCount

section
variable {manager : LockManager} {held : ι → Holding}

theorem QueuesKept.new (isAvailable : Bool) (answers : Nat → Bool) : QueuesKept (LockManager.new isAvailable answers) fun _ : ι => .nothing where
  nodup := fun _ => List.nodup_nil
  owned := fun _ _ member => (List.not_mem_nil member).elim
  kept := fun _ _ _ has => by cases has
  apart := fun _ _ _ _ _ has => by cases has
  known := fun _ _ _ has => by cases has
  fresh := fun _ has => by cases has
  head := fun _ _ _ member => (List.not_mem_nil member).elim
  waiting := fun _ member => (List.not_mem_nil member).elim
  granted := fun _ _ has => by cases has
  counted := ⟨∅, fun _ => by simp [Holding.nothing], rfl⟩

section
variable (kept : QueuesKept manager held)
include kept

theorem QueuesKept.holder
    (mine : (held first).locked queue = true) (yours : (held second).locked queue = true) : first = second := by
  obtain ⟨proper, promise, entry, resolved⟩ := kept.granted first queue mine
  obtain ⟨-, other, also, woken⟩ := kept.granted second queue yours
  have queued : ∀ caller promise, (held caller).entry queue = some promise → promise ∈ manager.locks queue := by
    intro caller promise has
    rcases kept.kept caller queue promise has with member | ⟨shared, -⟩
    · exact member
    · exact absurd shared proper
  have front := kept.head queue promise proper (queued first promise entry) resolved
  have same := kept.head queue other proper (queued second other also) woken
  rw [front, Option.some.injEq] at same
  exact (kept.apart first second queue queue promise entry (same ▸ also)).1

theorem QueuesKept.resolve (known : promise < manager.nextPromise)
    (alone : promise ∉ manager.locks .actionWriterSharedLocks)
    (front : ∀ queue, queue ≠ .actionWriterSharedLocks → promise ∈ manager.locks queue → (manager.locks queue).head? = some promise) :
    QueuesKept (manager.resolve promise) held := by
  have resolved := manager.resolve_resolved promise
  refine ⟨kept.nodup, kept.owned, fun caller queue other has => ?_, kept.apart, kept.known, fun other woken => ?_,
    fun queue other proper member woken => ?_, fun other member => ?_, fun caller queue locked => ?_, kept.counted⟩
  · rcases kept.kept caller queue other has with member | ⟨shared, woken⟩
    · exact .inl member
    · exact .inr ⟨shared, (resolved other).mpr (.inr woken)⟩
  · rcases (resolved other).mp woken with rfl | before
    · exact known
    · exact kept.fresh other before
  · rcases (resolved other).mp woken with rfl | before
    · exact front queue proper member
    · exact kept.head queue other proper member before
  · rw [← Bool.not_eq_true, resolved]
    rintro (rfl | woken)
    · exact alone member
    · rw [kept.waiting other member] at woken
      cases woken
  · obtain ⟨proper, other, entry, woken⟩ := kept.granted caller queue locked
    exact ⟨proper, other, entry, (resolved other).mpr (.inr woken)⟩

theorem QueuesKept.queued_once
    (member : promise ∈ manager.locks queue) (also : promise ∈ manager.locks second) : queue = second := by
  obtain ⟨caller, entry⟩ := kept.owned queue promise member
  obtain ⟨other, has⟩ := kept.owned second promise also
  exact (kept.apart caller other queue second promise entry has).2

theorem QueuesKept.known_of_mem
    (member : promise ∈ manager.locks queue) : promise < manager.nextPromise := by
  obtain ⟨caller, entry⟩ := kept.owned queue promise member
  exact kept.known caller queue promise entry

theorem QueuesKept.wakeHead (proper : queue ≠ .actionWriterSharedLocks) :
    QueuesKept (manager.wakeHead queue) held := by
  unfold LockManager.wakeHead
  cases entries : manager.locks queue with
  | nil => exact kept
  | cons promise rest =>
    have member := entries ▸ List.mem_cons_self
    refine kept.resolve (kept.known_of_mem member) (fun shared => proper (kept.queued_once member shared)) fun other _ also => ?_
    rw [kept.queued_once also member, entries]
    rfl

theorem QueuesKept.wakeShared :
    QueuesKept ((manager.locks .actionWriterSharedLocks).foldl LockManager.resolve (manager.setQueue .actionWriterSharedLocks [])) held := by
  -- the waiters that are still to be woken stay queued in the argument, and leave one by one
  have each : ∀ waiting (current : LockManager), QueuesKept current held → current.locks .actionWriterSharedLocks = waiting →
      QueuesKept (waiting.foldl LockManager.resolve (current.setQueue .actionWriterSharedLocks [])) held := by
    intro waiting
    induction waiting with
    | nil =>
      intro current kept empty
      have same : current.setQueue .actionWriterSharedLocks [] = current := by
        unfold LockManager.setQueue
        rw [← empty, update_eq_self]
      rw [List.foldl_nil, same]
      exact kept
    | cons promise rest ih =>
      intro current kept entries
      have member := entries ▸ List.mem_cons_self
      have known := kept.known_of_mem member
      have resolved := current.resolve_resolved promise
      have distinct := kept.nodup .actionWriterSharedLocks
      rw [entries, List.nodup_cons] at distinct
      have others : ∀ queue, queue ≠ .actionWriterSharedLocks →
          ((current.resolve promise).setQueue .actionWriterSharedLocks rest).locks queue = current.locks queue := by
        intro queue proper
        exact LockManager.setQueue_locks_ne _ _ _ proper
      have queued : ∀ queue other, other ∈ ((current.resolve promise).setQueue .actionWriterSharedLocks rest).locks queue →
          other ∈ current.locks queue := by
        intro queue other has
        by_cases shared : queue = .actionWriterSharedLocks
        · subst shared
          rw [LockManager.setQueue_locks_self] at has
          rw [entries]
          exact .tail _ has
        · rwa [others queue shared] at has
      have left : QueuesKept ((current.resolve promise).setQueue .actionWriterSharedLocks rest) held := by
        refine ⟨fun queue => ?_, fun queue other has => kept.owned queue other (queued queue other has), fun caller queue other has => ?_,
          kept.apart, kept.known, fun other woken => ?_, fun queue other proper has woken => ?_, fun other has => ?_,
          fun caller queue locked => ?_, kept.counted⟩
        · by_cases shared : queue = .actionWriterSharedLocks
          · subst shared
            rw [LockManager.setQueue_locks_self]
            exact distinct.2
          · rw [others queue shared]
            exact kept.nodup queue
        · rcases kept.kept caller queue other has with here | ⟨shared, before⟩
          · by_cases shared : queue = .actionWriterSharedLocks
            · subst shared
              rw [entries, List.mem_cons] at here
              rcases here with rfl | later
              · exact .inr ⟨rfl, (resolved other).mpr (.inl rfl)⟩
              · exact .inl (by rwa [LockManager.setQueue_locks_self])
            · exact .inl (by rwa [others queue shared])
          · exact .inr ⟨shared, (resolved other).mpr (.inr before)⟩
        · rcases (resolved other).mp woken with rfl | before
          · exact known
          · exact kept.fresh other before
        · rw [others queue proper] at has ⊢
          rcases (resolved other).mp woken with rfl | before
          · exact absurd (kept.queued_once has member) proper
          · exact kept.head queue other proper has before
        · rw [LockManager.setQueue_locks_self] at has
          rw [LockManager.setQueue_resolved, ← Bool.not_eq_true, resolved]
          rintro (rfl | before)
          · exact distinct.1 has
          · rw [kept.waiting other (entries ▸ .tail _ has)] at before
            cases before
        · obtain ⟨proper, other, entry, before⟩ := kept.granted caller queue locked
          exact ⟨proper, other, entry, (resolved other).mpr (.inr before)⟩
      have next := ih _ left (LockManager.setQueue_locks_self _ _ _)
      rw [List.foldl_cons]
      have same : ((current.resolve promise).setQueue .actionWriterSharedLocks rest).setQueue .actionWriterSharedLocks [] =
          (current.setQueue .actionWriterSharedLocks []).resolve promise := by
        simp [LockManager.setQueue, LockManager.resolve]
      rwa [same] at next
  exact each _ manager kept rfl

end

end
section
variable {manager : LockManager} {held : ι → Holding} [DecidableEq ι] {caller : ι} {after : Holding}

/-- A holding that differs in nothing the queues depend on. -/
theorem QueuesKept.update (kept : QueuesKept manager held) (entry : after.entry = (held caller).entry)
    (locked : ∀ queue, after.locked queue = true → queue ≠ .actionWriterSharedLocks ∧
      ∃ promise, (held caller).entry queue = some promise ∧ manager.resolved promise = true)
    (counted : after.counted = (held caller).counted) : QueuesKept manager (Function.update held caller after) := by
  have entries : ∀ other, (Function.update held caller after other).entry = (held other).entry := by
    intro other
    by_cases same : other = caller
    · subst same
      rw [update_self, entry]
    · rw [update_of_ne same]
  refine ⟨kept.nodup, fun queue promise member => ?_, fun other queue promise has => ?_, fun other third queue second promise has also => ?_,
    fun other queue promise has => ?_, kept.fresh, kept.head, kept.waiting, fun other queue has => ?_, ?_⟩
  · obtain ⟨other, has⟩ := kept.owned queue promise member
    exact ⟨other, (entries other).symm ▸ has⟩
  · exact kept.kept other queue promise (entries other ▸ has)
  · exact kept.apart other third queue second promise (entries other ▸ has) (entries third ▸ also)
  · exact kept.known other queue promise (entries other ▸ has)
  · rw [entries]
    by_cases same : other = caller
    · subst same
      rw [update_self] at has
      exact locked queue has
    · rw [update_of_ne same] at has
      exact kept.granted other queue has
  · obtain ⟨sharing, members, size⟩ := kept.counted
    refine ⟨sharing, fun other => (members other).trans ?_, size⟩
    by_cases same : other = caller
    · subst same
      rw [update_self, counted]
    · rw [update_of_ne same]

/-- A new entry at the end of a queue its call has not entered. -/
theorem QueuesKept.enqueue (kept : QueuesKept manager held) (idle : (held caller).entry queue = none)
    (entry : after.entry = Function.update (held caller).entry queue (some manager.nextPromise))
    (locked : ∀ other, after.locked other = true → other ≠ queue ∧ (held caller).locked other = true)
    (counted : after.counted = (held caller).counted) : QueuesKept (manager.enqueue queue) (Function.update held caller after) := by
  have queued := manager.enqueue_locks_self queue
  have elsewhere : ∀ other, other ≠ queue → (manager.enqueue queue).locks other = manager.locks other := fun other different =>
    manager.enqueue_locks_ne queue different
  have new : ∀ other, manager.nextPromise ∉ manager.locks other := fun other member => absurd (kept.known_of_mem member) (lt_irrefl _)
  have entries : ∀ other second promise, (Function.update held caller after other).entry second = some promise ↔
      (other = caller ∧ second = queue ∧ promise = manager.nextPromise) ∨ (held other).entry second = some promise := by
    intro other second promise
    by_cases same : other = caller
    · subst same
      rw [update_self, entry]
      by_cases here : second = queue
      · subst here
        rw [update_self, idle]
        simp [eq_comm]
      · rw [update_of_ne here]
        simp [here]
    · rw [update_of_ne same]
      simp [same]
  have old : ∀ other second, (held other).entry second ≠ some manager.nextPromise := fun other second has =>
    absurd (kept.known other second _ has) (lt_irrefl _)
  refine ⟨fun other => ?_, fun other promise member => ?_, fun other second promise has => ?_, fun other third second fourth promise has also => ?_,
    fun other second promise has => ?_, fun promise woken => (kept.fresh promise woken).trans (Nat.lt_succ_self _),
    fun other promise proper member woken => ?_, fun promise member => ?_, fun other second has => ?_, ?_⟩
  · by_cases here : other = queue
    · subst here
      rw [queued]
      exact List.nodup_append.mpr ⟨kept.nodup other, List.nodup_singleton _, fun a had b fresh same => new other (by
        rw [List.mem_singleton] at fresh
        rwa [← fresh, ← same])⟩
    · rw [elsewhere other here]
      exact kept.nodup other
  · by_cases here : other = queue
    · subst here
      rw [queued, List.mem_append, List.mem_singleton] at member
      rcases member with before | rfl
      · obtain ⟨owner, has⟩ := kept.owned other promise before
        exact ⟨owner, (entries owner other promise).mpr (.inr has)⟩
      · exact ⟨caller, (entries caller other _).mpr (.inl ⟨rfl, rfl, rfl⟩)⟩
    · rw [elsewhere other here] at member
      obtain ⟨owner, has⟩ := kept.owned other promise member
      exact ⟨owner, (entries owner other promise).mpr (.inr has)⟩
  · rcases (entries other second promise).mp has with ⟨-, rfl, rfl⟩ | before
    · exact .inl (by simp [queued])
    · rcases kept.kept other second promise before with member | woken
      · refine .inl ?_
        by_cases here : second = queue
        · subst here
          simp [queued, member]
        · rwa [elsewhere second here]
      · exact .inr woken
  · rcases (entries other second promise).mp has with ⟨rfl, rfl, rfl⟩ | before
    · rcases (entries third fourth _).mp also with ⟨rfl, rfl, -⟩ | had
      · exact ⟨rfl, rfl⟩
      · exact absurd had (old third fourth)
    · rcases (entries third fourth promise).mp also with ⟨-, -, rfl⟩ | had
      · exact absurd before (old other second)
      · exact kept.apart other third second fourth promise before had
  · rcases (entries other second promise).mp has with ⟨-, -, rfl⟩ | before
    · exact Nat.lt_succ_self _
    · exact (kept.known other second promise before).trans (Nat.lt_succ_self _)
  · by_cases here : other = queue
    · subst here
      rw [queued, List.mem_append, List.mem_singleton] at member
      rcases member with before | rfl
      · rw [queued, List.head?_append, kept.head other promise proper before woken]
        rfl
      · exact absurd (kept.fresh _ woken) (lt_irrefl _)
    · rw [elsewhere other here] at member ⊢
      exact kept.head other promise proper member woken
  · by_cases here : queue = .actionWriterSharedLocks
    · subst here
      rw [queued, List.mem_append, List.mem_singleton] at member
      rcases member with before | rfl
      · exact kept.waiting promise before
      · by_contra woken
        exact absurd (kept.fresh _ (Bool.not_eq_false _ ▸ woken)) (lt_irrefl _)
    · rw [elsewhere _ (Ne.symm here)] at member
      exact kept.waiting promise member
  · by_cases same : other = caller
    · subst same
      rw [update_self] at has ⊢
      obtain ⟨here, before⟩ := locked second has
      rw [entry, update_of_ne here]
      exact kept.granted other second before
    · rw [update_of_ne same] at has ⊢
      exact kept.granted other second has
  · obtain ⟨sharing, members, size⟩ := kept.counted
    refine ⟨sharing, fun other => (members other).trans ?_, size⟩
    by_cases same : other = caller
    · subst same
      rw [update_self, counted]
    · rw [update_of_ne same]

theorem QueuesKept.push (kept : QueuesKept manager held) (idle : (held caller).entry queue = none)
    (proper : queue ≠ .actionWriterSharedLocks) :
    QueuesKept (manager.push queue) (Function.update held caller ((held caller).next ⟨.push queue, manager.nextPromise⟩)) := by
  have queued : QueuesKept (manager.enqueue queue) (Function.update held caller ((held caller).next ⟨.push queue, manager.nextPromise⟩)) := by
    refine kept.enqueue idle rfl (fun other has => ?_) rfl
    by_cases here : other = queue
    · subst here
      simp [Holding.next] at has
    · simp only [Holding.next, update_of_ne here] at has
      exact ⟨here, has⟩
  unfold LockManager.push
  dsimp only
  split
  · next alone =>
    have entries := manager.enqueue_locks_self queue
    have empty : manager.locks queue = [] := by
      have length := alone.1
      rw [entries, List.length_append, List.length_singleton] at length
      exact List.length_eq_zero_iff.mp (by omega)
    have member : manager.nextPromise ∈ (manager.enqueue queue).locks queue := by simp [entries]
    refine queued.resolve (Nat.lt_succ_self _) (fun shared => proper (queued.queued_once member shared)) fun other _ also => ?_
    rw [queued.queued_once also member, entries, empty]
    rfl
  · exact queued

theorem QueuesKept.lock (kept : QueuesKept manager held)
    (entry : (held caller).entry queue = some promise) (proper : queue ≠ .actionWriterSharedLocks) (woken : manager.resolved promise = true) :
    QueuesKept manager (Function.update held caller ((held caller).next ⟨.lock queue promise, ()⟩)) := by
  refine kept.update rfl (fun other has => ?_) rfl
  by_cases here : other = queue
  · subst here
    exact ⟨proper, promise, entry, woken⟩
  · simp only [Holding.next, update_of_ne here] at has
    exact kept.granted caller other has

end

def Holding.drop (holding : Holding) (queue : LockQueue) : Holding :=
  { holding with entry := Function.update holding.entry queue none, locked := Function.update holding.locked queue false }

theorem Holding.foldl_drop (holding : Holding) (queues) :
    queues.foldl Holding.drop holding = holding.next ⟨.release queues, ()⟩ := by
  induction queues generalizing holding with
  | nil => simp [Holding.next]
  | cons queue rest ih =>
    rw [List.foldl_cons, ih]
    have entries : ∀ other, (if other ∈ rest then none else (holding.drop queue).entry other) =
        if other ∈ queue :: rest then none else holding.entry other := by
      intro other
      by_cases same : other = queue
      · simp [drop, same]
      · simp [drop, same]
    have locks : ∀ other, (if other ∈ rest then false else (holding.drop queue).locked other) =
        if other ∈ queue :: rest then false else holding.locked other := by
      intro other
      by_cases same : other = queue
      · simp [drop, same]
      · simp [drop, same]
    simp only [Holding.next, funext entries, funext locks]
    rfl

section
variable {manager : LockManager} {held : ι → Holding} [DecidableEq ι] {caller : ι}

/-- The head of a queue leaves it with its call. -/
theorem QueuesKept.shift (kept : QueuesKept manager held) (mine : (held caller).locked queue = true) :
    QueuesKept (manager.setQueue queue (manager.locks queue).tail) (Function.update held caller ((held caller).drop queue)) := by
  obtain ⟨proper, first, entry, woken⟩ := kept.granted caller queue mine
  have queued := (kept.kept caller queue first entry).resolve_right fun shared => proper shared.1
  have front := kept.head queue first proper queued woken
  obtain ⟨rest, list⟩ := List.head?_eq_some_iff.mp front
  have tail : (manager.locks queue).tail = rest := by rw [list, List.tail_cons]
  have distinct := kept.nodup queue
  rw [list, List.nodup_cons] at distinct
  rw [tail]
  have elsewhere : ∀ other, other ≠ queue → (manager.setQueue queue rest).locks other = manager.locks other := fun other different =>
    LockManager.setQueue_locks_ne _ _ _ different
  have left : ∀ other promise, promise ∈ (manager.setQueue queue rest).locks other → promise ∈ manager.locks other := by
    intro other promise member
    by_cases here : other = queue
    · subst here
      rw [LockManager.setQueue_locks_self] at member
      rw [list]
      exact .tail _ member
    · rwa [elsewhere other here] at member
  have entries : ∀ other second promise, (Function.update held caller ((held caller).drop queue) other).entry second = some promise ↔
      (held other).entry second = some promise ∧ ¬(other = caller ∧ second = queue) := by
    intro other second promise
    by_cases same : other = caller
    · subst same
      rw [update_self]
      by_cases here : second = queue
      · simp [Holding.drop, here]
      · simp [Holding.drop, here]
    · simp [same]
  refine ⟨fun other => ?_, fun other promise member => ?_, fun other second promise has => ?_, fun other third second fourth promise has also => ?_,
    fun other second promise has => ?_, kept.fresh, fun other promise apart member resolved => ?_, fun promise member => ?_,
    fun other second has => ?_, ?_⟩
  · by_cases here : other = queue
    · subst here
      rw [LockManager.setQueue_locks_self]
      exact distinct.2
    · rw [elsewhere other here]
      exact kept.nodup other
  · obtain ⟨owner, has⟩ := kept.owned other promise (left other promise member)
    refine ⟨owner, (entries owner other promise).mpr ⟨has, ?_⟩⟩
    rintro ⟨rfl, rfl⟩
    rw [entry, Option.some.injEq] at has
    rw [LockManager.setQueue_locks_self, ← has] at member
    exact distinct.1 member
  · obtain ⟨before, differs⟩ := (entries other second promise).mp has
    refine (kept.kept other second promise before).imp (fun member => ?_) id
    by_cases here : second = queue
    · subst here
      rw [LockManager.setQueue_locks_self]
      rw [list, List.mem_cons] at member
      refine member.resolve_left fun same => differs ⟨?_, rfl⟩
      exact (kept.apart other caller second second promise before (same ▸ entry)).1
    · rwa [elsewhere second here]
  · exact kept.apart other third second fourth promise ((entries other second promise).mp has).1 ((entries third fourth promise).mp also).1
  · exact kept.known other second promise ((entries other second promise).mp has).1
  · by_cases here : other = queue
    · subst here
      rw [LockManager.setQueue_locks_self] at member
      have again := kept.head other promise apart (list ▸ .tail _ member) resolved
      rw [front, Option.some.injEq] at again
      exact absurd (again ▸ member) distinct.1
    · rw [elsewhere other here] at member ⊢
      exact kept.head other promise apart member resolved
  · exact kept.waiting promise (left _ promise member)
  · by_cases same : other = caller
    · subst same
      rw [update_self] at has ⊢
      by_cases here : second = queue
      · simp [Holding.drop, here] at has
      · simp only [Holding.drop, update_of_ne here] at has ⊢
        exact kept.granted other second has
    · rw [update_of_ne same] at has ⊢
      exact kept.granted other second has
  · obtain ⟨sharing, members, size⟩ := kept.counted
    refine ⟨sharing, fun other => (members other).trans ?_, size⟩
    by_cases same : other = caller
    · subst same
      rw [update_self]
      rfl
    · rw [update_of_ne same]

theorem QueuesKept.releaseQueue (kept : QueuesKept manager held) (mine : (held caller).locked queue = true) :
    QueuesKept (manager.releaseQueue queue) (Function.update held caller ((held caller).drop queue)) := by
  have shifted := kept.shift mine
  unfold LockManager.releaseQueue
  split
  · next exclusive =>
    subst exclusive
    unfold LockManager.releaseActionWriterExclusiveLock
    dsimp only
    split
    · split
      · exact shifted.wakeHead (by decide)
      · exact shifted
    · exact shifted.wakeShared
  · exact shifted.wakeHead (kept.granted caller queue mine).1

theorem LockManager.releaseQueue_empty {queue} (empty : manager.locks queue = []) (proper : queue ≠ .actionWriterExclusiveLocks) :
    manager.releaseQueue queue = manager := by
  have same : manager.setQueue queue (manager.locks queue).tail = manager := by
    unfold LockManager.setQueue
    rw [empty, List.tail_nil, ← empty, update_eq_self]
  rw [LockManager.releaseQueue, if_neg proper, LockManager.releaseActiveLock, same, LockManager.wakeHead, empty]

theorem LockManager.wakeHead_locks (manager : LockManager) (queue : LockQueue) : (manager.wakeHead queue).locks = manager.locks := by
  unfold LockManager.wakeHead
  split <;> rfl

theorem LockManager.resolveAll_locks (promises : List Nat) (manager : LockManager) : (promises.foldl LockManager.resolve manager).locks = manager.locks := by
  induction promises generalizing manager with
  | nil => rfl
  | cons promise rest ih => exact ih (manager.resolve promise)

theorem LockManager.releaseQueue_others {queue other} (different : other ≠ queue) (proper : other ≠ .actionWriterSharedLocks) :
    (manager.releaseQueue queue).locks other = manager.locks other := by
  unfold LockManager.releaseQueue
  split
  · next exclusive =>
    subst exclusive
    unfold LockManager.releaseActionWriterExclusiveLock
    dsimp only
    split
    · split
      · rw [LockManager.wakeHead_locks, LockManager.setQueue_locks_ne _ _ _ different]
      · exact LockManager.setQueue_locks_ne _ _ _ different
    · rw [LockManager.resolveAll_locks, LockManager.setQueue_locks_ne _ _ _ proper, LockManager.setQueue_locks_ne _ _ _ different]
  · rw [LockManager.releaseActiveLock, LockManager.wakeHead_locks, LockManager.setQueue_locks_ne _ _ _ different]

theorem QueuesKept.release (kept : QueuesKept manager held) {queues} (distinct : queues.Nodup)
    (proper : .actionWriterSharedLocks ∉ queues)
    (each : ∀ queue ∈ queues, (held caller).locked queue = true ∨
      (held caller).entry queue = none ∧ (held caller).locked queue = false ∧ queue ≠ .actionWriterExclusiveLocks ∧ manager.locks queue = []) :
    QueuesKept (queues.foldl LockManager.releaseQueue manager) (Function.update held caller ((held caller).next ⟨.release queues, ()⟩)) := by
  rw [← Holding.foldl_drop]
  induction queues generalizing manager held with
  | nil => simpa using kept
  | cons queue rest ih =>
    rw [List.nodup_cons] at distinct
    rw [List.mem_cons, not_or] at proper
    have first : QueuesKept (manager.releaseQueue queue) (Function.update held caller ((held caller).drop queue)) := by
      rcases each queue (.head _) with mine | ⟨entry, locked, exclusive, empty⟩
      · exact kept.releaseQueue mine
      · rw [LockManager.releaseQueue_empty empty exclusive]
        refine kept.update ?_ (fun other has => ?_) rfl
        · show Function.update (held caller).entry queue none = (held caller).entry
          rw [← entry, update_eq_self]
        · by_cases here : other = queue
          · simp [Holding.drop, here] at has
          · simp only [Holding.drop, update_of_ne here] at has
            exact kept.granted caller other has
    have next := ih first distinct.2 proper.2 fun other member => ?_
    · rwa [update_self, Function.update_idem] at next
    · have different : other ≠ queue := fun same => distinct.1 (same ▸ member)
      rw [update_self, LockManager.releaseQueue_others different fun same => proper.2 (same ▸ member)]
      simp only [Holding.drop, update_of_ne different]
      exact each other (.tail _ member)

/-- One more call is counted. -/
theorem QueuesKept.count (kept : QueuesKept manager held) (was : (held caller).counted = false)
    (entry : ∀ queue, queue ≠ .actionWriterSharedLocks → after.entry queue = (held caller).entry queue)
    (waits : after.entry .actionWriterSharedLocks = none) (locked : after.locked = (held caller).locked) (counted : after.counted = true)
    (left : ∀ promise, (held caller).entry .actionWriterSharedLocks = some promise → manager.resolved promise = true) :
    QueuesKept { manager with actionWriterSharedCount := manager.actionWriterSharedCount + 1 } (Function.update held caller after) := by
  have before : ∀ other queue promise, (Function.update held caller after other).entry queue = some promise →
      (held other).entry queue = some promise := by
    intro other queue promise has
    by_cases same : other = caller
    · subst same
      rw [update_self] at has
      by_cases shared : queue = .actionWriterSharedLocks
      · rw [shared, waits] at has
        cases has
      · rwa [entry queue shared] at has
    · rwa [update_of_ne same] at has
  refine ⟨kept.nodup, fun queue promise member => ?_, fun other queue promise has => kept.kept other queue promise (before other queue promise has),
    fun other third queue second promise has also => kept.apart other third queue second promise (before _ _ _ has) (before _ _ _ also),
    fun other queue promise has => kept.known other queue promise (before other queue promise has), kept.fresh, kept.head, kept.waiting,
    fun other queue has => ?_, ?_⟩
  · obtain ⟨owner, has⟩ := kept.owned queue promise member
    refine ⟨owner, ?_⟩
    by_cases same : owner = caller
    · subst same
      rw [update_self]
      by_cases shared : queue = .actionWriterSharedLocks
      · subst shared
        have unresolved := kept.waiting promise member
        rw [left promise has] at unresolved
        cases unresolved
      · rwa [entry queue shared]
    · rwa [update_of_ne same]
  · by_cases same : other = caller
    · subst same
      rw [update_self] at has ⊢
      rw [locked] at has
      obtain ⟨proper, promise, mine, woken⟩ := kept.granted other queue has
      exact ⟨proper, promise, (entry queue proper).trans mine, woken⟩
    · rw [update_of_ne same] at has ⊢
      exact kept.granted other queue has
  · obtain ⟨sharing, members, size⟩ := kept.counted
    have new : caller ∉ sharing := by
      rw [members, was]
      exact Bool.false_ne_true
    refine ⟨insert caller sharing, fun other => ?_, by rw [Finset.card_insert_of_notMem new, size]⟩
    rw [Finset.mem_insert, members]
    by_cases same : other = caller
    · subst same
      rw [update_self, counted]
      simp
    · rw [update_of_ne same]
      simp [same]

theorem QueuesKept.uncount (kept : QueuesKept manager held) (was : (held caller).counted = true) :
    QueuesKept manager.releaseActionWriterSharedLock
      (Function.update held caller ((held caller).next ⟨.releaseActionWriterSharedLock, ()⟩)) := by
  have lowered : QueuesKept { manager with actionWriterSharedCount := manager.actionWriterSharedCount - 1 }
      (Function.update held caller ((held caller).next ⟨.releaseActionWriterSharedLock, ()⟩)) := by
    have same : ∀ other, (Function.update held caller ((held caller).next ⟨.releaseActionWriterSharedLock, ()⟩) other).entry = (held other).entry ∧
        (Function.update held caller ((held caller).next ⟨.releaseActionWriterSharedLock, ()⟩) other).locked = (held other).locked := by
      intro other
      by_cases here : other = caller
      · subst here
        rw [update_self]
        exact ⟨rfl, rfl⟩
      · rw [update_of_ne here]
        exact ⟨rfl, rfl⟩
    refine ⟨kept.nodup, fun queue promise member => ?_, fun other queue promise has => ?_, fun other third queue second promise has also => ?_,
      fun other queue promise has => ?_, kept.fresh, kept.head, kept.waiting, fun other queue has => ?_, ?_⟩
    · obtain ⟨owner, has⟩ := kept.owned queue promise member
      exact ⟨owner, (same owner).1 ▸ has⟩
    · exact kept.kept other queue promise ((same other).1 ▸ has)
    · exact kept.apart other third queue second promise ((same other).1 ▸ has) ((same third).1 ▸ also)
    · exact kept.known other queue promise ((same other).1 ▸ has)
    · rw [(same other).1]
      exact kept.granted other queue ((same other).2 ▸ has)
    · obtain ⟨sharing, members, size⟩ := kept.counted
      have member := (members caller).mpr was
      refine ⟨sharing.erase caller, fun other => ?_, by rw [Finset.card_erase_of_mem member, size]⟩
      rw [Finset.mem_erase, members]
      by_cases here : other = caller
      · subst here
        simp [Holding.next]
      · simp [here]
  unfold LockManager.releaseActionWriterSharedLock
  dsimp only
  split
  · exact lowered.wakeHead (by decide)
  · exact lowered

end

end WalletToolbox

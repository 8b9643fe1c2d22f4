import WalletToolbox.Chaintracks.SingleWriterMultiReaderLock

/-! Exclusion of the lock. Between the release of a waiter and its wake-up the lock looks free,
so a call that arrives there may overtake the waiter. Runs in which none does are orderly:
only readers are in, or one writer is, or one writer is about to start. -/

namespace WalletToolbox.LockRun
open List
open SingleWriterMultiReaderLock (checkQueues enter startsAtOnce)

/-- At most one write function runs, and no read function beside one. -/
def Excludes (run : LockRun) : Prop :=
  run.running.countP (·.access = .write) ≤ 1 ∧
    ((∃ caller ∈ run.running, caller.access = .write) → ∀ caller ∈ run.running, caller.access = .write)

/-- No function runs and none is about to start. -/
def Idle (run : LockRun) : Prop := run.running = [] ∧ ∀ caller, .resume caller ∉ run.microtasks

def Undisturbed (run : LockRun) : LockEvent → Prop
  | .call .read => run.lock.startsAtOnce .read = true → ∀ caller, .resume caller ∈ run.microtasks → caller.access = .read
  | .call .write => run.lock.startsAtOnce .write = true → ∀ caller, .resume caller ∉ run.microtasks
  | .settle _ | .turn => True

def Calm : LockRun → List LockEvent → Prop
  | _, [] => True
  | run, event :: rest => run.Undisturbed event ∧ ∀ next, run.step event = some next → next.Calm rest

/-- What holds of every run: the counts are kept, and somebody is in while somebody waits. -/
structure Tracked (run : LockRun) : Prop where
  readers : run.lock.readers = run.running.countP (·.access = .read)
  writing : run.lock.writerActive = true → ∃ caller ∈ run.running, caller.access = .write
  finishing : ∀ caller, .finish caller ∈ run.microtasks → caller ∈ run.running
  once : ∀ caller, run.microtasks.count (.finish caller) ≤ 1
  waited : run.Idle → run.lock.readerQueue = [] ∧ run.lock.writerQueue = []

section
variable {run next : LockRun}

theorem Tracked.new : Tracked {} where
  readers := rfl
  writing := fun active => by cases active
  finishing := fun _ member => by cases member
  once := fun _ => Nat.zero_le _
  waited := fun _ => ⟨rfl, rfl⟩

theorem Tracked.call (tracked : run.Tracked) (access : LockAccess) : (run.call access).Tracked := by
  unfold LockRun.call
  by_cases free : run.lock.startsAtOnce access = true
  · rw [if_pos free]
    have started : run.running ++ [⟨access, run.calls⟩] ≠ [] := by simp
    refine ⟨?_, ?_, fun caller member => mem_append_left _ (tracked.finishing caller member), tracked.once, fun idle => (started idle.1).elim⟩
    · cases access with
      | read => simp [enter, tracked.readers]
      | write => simp [enter, tracked.readers]
    · cases access with
      | read =>
        intro active
        obtain ⟨caller, member, writes⟩ := tracked.writing active
        exact ⟨caller, mem_append_left _ member, writes⟩
      | write => exact fun _ => ⟨⟨.write, run.calls⟩, by simp, rfl⟩
  · rw [if_neg free]
    have busy : ¬ run.Idle := by
      intro idle
      have none : run.running = [] := idle.1
      have readers : run.lock.readers = 0 := by rw [tracked.readers, none]; rfl
      have inactive : run.lock.writerActive = false := by
        rw [Bool.eq_false_iff]
        intro active
        obtain ⟨caller, member, _⟩ := tracked.writing active
        rw [none] at member
        cases member
      apply free
      cases access with
      | read => simp [startsAtOnce, inactive, (tracked.waited idle).2]
      | write => simp [startsAtOnce, inactive, readers]
    cases access with
    | read | write => exact ⟨tracked.readers, tracked.writing, tracked.finishing, tracked.once, fun idle => (busy idle).elim⟩

theorem Tracked.settle (tracked : run.Tracked) (runs : caller ∈ run.running) (unsettled : .finish caller ∉ run.microtasks) :
    Tracked { run with microtasks := run.microtasks ++ [.finish caller] } where
  readers := tracked.readers
  writing := tracked.writing
  finishing := by
    intro other member
    rcases mem_append.mp member with earlier | last
    · exact tracked.finishing other earlier
    · cases mem_singleton.mp last
      exact runs
  once := by
    intro other
    rw [count_append]
    by_cases same : other = caller
    · subst same
      have none := count_eq_zero_of_not_mem unsettled
      have one : [Microtask.finish other].count (Microtask.finish other) = 1 := count_singleton_self
      omega
    · have different : Microtask.finish caller ≠ .finish other := fun is => same (Microtask.finish.inj is).symm
      rw [count_singleton, beq_false_of_ne different]
      exact tracked.once other
  waited := by
    intro idle
    have none : run.running = [] := idle.1
    rw [none] at runs
    cases runs

theorem Tracked.resume (tracked : run.Tracked) (tasks : run.microtasks = .resume caller :: rest) :
    (run.runTask rest (.resume caller)).Tracked := by
  have started : run.running ++ [caller] ≠ [] := by simp
  obtain ⟨access, id⟩ := caller
  refine ⟨?_, ?_, ?_, ?_, fun idle => (started idle.1).elim⟩
  · cases access with
    | read => simp [LockRun.runTask, enter, tracked.readers]
    | write => simp [LockRun.runTask, enter, tracked.readers]
  · cases access with
    | read =>
      intro active
      obtain ⟨caller, member, writes⟩ := tracked.writing active
      exact ⟨caller, mem_append_left _ member, writes⟩
    | write => exact fun _ => ⟨⟨.write, id⟩, mem_append_right _ (.head _), rfl⟩
  · intro other member
    exact mem_append_left _ (tracked.finishing other (tasks ▸ .tail _ member))
  · intro other
    have counted := tracked.once other
    rw [tasks, count_cons_of_ne (by simp)] at counted
    exact counted

theorem checkQueues_readers (lock : SingleWriterMultiReaderLock) : lock.checkQueues.1.readers = lock.readers := by
  unfold checkQueues
  split
  · rfl
  · split <;> rfl

theorem checkQueues_writerActive (lock : SingleWriterMultiReaderLock) : lock.checkQueues.1.writerActive = lock.writerActive := by
  unfold checkQueues
  split
  · rfl
  · split <;> rfl

theorem checkQueues_empty {lock : SingleWriterMultiReaderLock} (inactive : lock.writerActive = false) (unread : lock.readers = 0)
    (none : lock.checkQueues.2 = []) : lock.checkQueues.1.readerQueue = [] ∧ lock.checkQueues.1.writerQueue = [] := by
  unfold checkQueues at none ⊢
  rw [inactive, unread] at none ⊢
  cases queued : lock.writerQueue with
  | nil => exact ⟨rfl, rfl⟩
  | cons writer rest =>
    rw [queued] at none
    cases none

theorem runTask_finish (caller : LockCaller) (rest : List Microtask) : run.runTask rest (.finish caller) =
    { run with lock := (run.lock.leave caller.access).1, running := run.running.erase caller,
               microtasks := rest ++ (run.lock.leave caller.access).2.map .resume } := rfl

theorem Tracked.leave (tracked : run.Tracked) {caller : LockCaller} (runs : caller ∈ run.running) :
    (run.lock.leave caller.access).1.readers = (run.running.erase caller).countP (·.access = .read) ∧
    ((run.lock.leave caller.access).1.writerActive = true → ∃ other ∈ run.running.erase caller, other.access = .write) ∧
    (run.running.erase caller = [] → (run.lock.leave caller.access).2 = [] →
      (run.lock.leave caller.access).1.readerQueue = [] ∧ (run.lock.leave caller.access).1.writerQueue = []) := by
  have counted : run.running.countP (·.access = .read) = (run.running.erase caller).countP (·.access = .read) + if caller.access = .read then 1 else 0 := by
    rw [(perm_cons_erase runs).countP_eq, countP_cons]
    simp
  obtain ⟨access, id⟩ := caller
  cases access with
  | read =>
    have others : run.lock.writerActive = true → ∃ other ∈ run.running.erase ⟨.read, id⟩, other.access = .write := by
      intro active
      obtain ⟨other, member, writes⟩ := tracked.writing active
      have different : other ≠ ⟨.read, id⟩ := fun same => by rw [same] at writes; cases writes
      exact ⟨other, (mem_erase_of_ne different).mpr member, writes⟩
    refine ⟨?_, ?_, fun none nobody => ?_⟩
    · rw [SingleWriterMultiReaderLock.leave, checkQueues_readers, tracked.readers, counted]
      rfl
    · intro active
      rw [SingleWriterMultiReaderLock.leave, checkQueues_writerActive] at active
      exact others active
    · have inactive : run.lock.writerActive = false := by
        rw [Bool.eq_false_iff]
        intro active
        obtain ⟨other, member, _⟩ := others active
        rw [none] at member
        cases member
      have unread : run.lock.readers - 1 = 0 := by
        rw [tracked.readers, counted, none]
        rfl
      exact checkQueues_empty inactive unread nobody
  | write =>
    refine ⟨?_, fun active => ?_, fun none nobody => ?_⟩
    · rw [SingleWriterMultiReaderLock.leave, checkQueues_readers, tracked.readers, counted]
      rfl
    · rw [SingleWriterMultiReaderLock.leave, checkQueues_writerActive] at active
      cases active
    · have unread : run.lock.readers = 0 := by
        rw [tracked.readers, counted, none]
        rfl
      exact checkQueues_empty rfl unread nobody

theorem Tracked.finish (tracked : run.Tracked) (tasks : run.microtasks = .finish caller :: rest) :
    (run.runTask rest (.finish caller)).Tracked := by
  have runs : caller ∈ run.running := tracked.finishing caller (tasks ▸ .head _)
  obtain ⟨readers, writing, emptied⟩ := tracked.leave runs
  have settled : ∀ other, .finish other ∈ rest ++ (run.lock.leave caller.access).2.map Microtask.resume → .finish other ∈ rest := by
    intro other member
    rcases mem_append.mp member with earlier | woken
    · exact earlier
    · obtain ⟨_, _, is⟩ := mem_map.mp woken
      cases is
  rw [runTask_finish]
  refine ⟨readers, writing, fun other member => ?_, fun other => ?_, fun idle => ?_⟩
  · have later := settled other member
    have counted := tracked.once caller
    rw [tasks, count_cons_self] at counted
    have gone : .finish caller ∉ rest := count_eq_zero.mp (by omega)
    have different : other ≠ caller := fun same => gone (same ▸ later)
    exact (mem_erase_of_ne different).mpr (tracked.finishing other (tasks ▸ .tail _ later))
  · have counted := tracked.once other
    have woken : ((run.lock.leave caller.access).2.map Microtask.resume).count (.finish other) = 0 := by
      rw [count_eq_zero]
      intro member
      obtain ⟨_, _, is⟩ := mem_map.mp member
      cases is
    rw [tasks, count_cons] at counted
    rw [count_append, woken]
    omega
  · refine emptied idle.1 ?_
    cases nobody : (run.lock.leave caller.access).2 with
    | nil => rfl
    | cons woken others => exact (idle.2 woken (mem_append_right _ (mem_map_of_mem (nobody ▸ .head _)))).elim

theorem Tracked.step (tracked : run.Tracked) {event} (stepped : run.step event = some next) : next.Tracked := by
  cases event with
  | call access =>
    cases stepped
    exact tracked.call access
  | settle caller =>
    simp only [LockRun.step] at stepped
    split at stepped
    · next allowed =>
      cases stepped
      exact tracked.settle allowed.1 allowed.2
    · cases stepped
  | turn =>
    simp only [LockRun.step] at stepped
    split at stepped
    · cases stepped
    · next task rest tasks =>
      cases stepped
      cases task with
      | resume caller => exact tracked.resume tasks
      | finish caller => exact tracked.finish tasks

/-- The state of an orderly run: only readers are in, one writer is, or one is about to start;
and who is about to start does so before any function that runs can end. -/
inductive Orderly (run : LockRun) : Prop where
  | reading (waking ending : List LockCaller) (tasks : run.microtasks = waking.map .resume ++ ending.map .finish)
      (inactive : run.lock.writerActive = false) (readers : run.lock.readers = run.running.length)
      (running : ∀ caller ∈ run.running, caller.access = .read) (waiting : ∀ caller ∈ waking, caller.access = .read)
      (inside : ∀ caller ∈ ending, caller ∈ run.running)
  | writing (writer : LockCaller) (writes : writer.access = .write) (alone : run.running = [writer]) (active : run.lock.writerActive = true)
      (unread : run.lock.readers = 0) (tasks : ∀ caller, .resume caller ∉ run.microtasks)
  | waking (writer : LockCaller) (writes : writer.access = .write) (empty : run.running = []) (inactive : run.lock.writerActive = false)
      (unread : run.lock.readers = 0) (tasks : run.microtasks = [.resume writer])

theorem Orderly.new : Orderly {} :=
  .reading [] [] rfl rfl rfl (fun _ member => by cases member) (fun _ member => by cases member) fun _ member => by cases member

theorem Orderly.excludes (orderly : run.Orderly) : run.Excludes := by
  cases orderly with
  | reading waking ending tasks inactive readers running waiting inside =>
    have none : run.running.countP (·.access = .write) = 0 := by
      rw [countP_eq_zero]
      intro caller member
      simp [running caller member]
    refine ⟨by omega, fun ⟨caller, member, writes⟩ => ?_⟩
    rw [running caller member] at writes
    cases writes
  | writing writer writes alone active unread tasks =>
    unfold Excludes
    rw [alone]
    refine ⟨?_, fun _ caller member => ?_⟩
    · simp [writes]
    · cases mem_singleton.mp member
      exact writes
  | waking writer writes empty inactive unread tasks =>
    unfold Excludes
    rw [empty]
    exact ⟨Nat.zero_le _, fun ⟨caller, member, _⟩ => by cases member⟩

theorem Orderly.enqueue (orderly : run.Orderly) (caller : LockCaller) (calls : Nat) :
    Orderly { run with lock := run.lock.enqueue caller, calls } := by
  have kept : (run.lock.enqueue caller).writerActive = run.lock.writerActive ∧ (run.lock.enqueue caller).readers = run.lock.readers := by
    obtain ⟨access, id⟩ := caller
    cases access <;> exact ⟨rfl, rfl⟩
  cases orderly with
  | reading waking ending tasks inactive readers running waiting inside =>
    exact .reading waking ending tasks (kept.1.trans inactive) (kept.2.trans readers) running waiting inside
  | writing writer writes alone active unread tasks => exact .writing writer writes alone (kept.1.trans active) (kept.2.trans unread) tasks
  | waking writer writes empty inactive unread tasks =>
    exact .waking writer writes empty (kept.1.trans inactive) (kept.2.trans unread) tasks

theorem Orderly.call (orderly : run.Orderly) (access : LockAccess) (undisturbed : run.Undisturbed (.call access)) : (run.call access).Orderly := by
  unfold LockRun.call
  by_cases free : run.lock.startsAtOnce access = true
  swap
  · rw [if_neg free]
    exact orderly.enqueue _ _
  rw [if_pos free]
  cases orderly with
  | reading waking ending tasks inactive readers running waiting inside =>
    cases access with
    | read =>
      refine .reading waking ending tasks inactive ?_ ?_ waiting fun caller member => mem_append_left _ (inside caller member)
      · simp [enter, readers]
      · intro caller member
        rcases mem_append.mp member with earlier | last
        · exact running caller earlier
        · cases mem_singleton.mp last
          rfl
    | write =>
      have unread : run.lock.readers = 0 := by
        simp only [startsAtOnce, Bool.and_eq_true, decide_eq_true_eq] at free
        exact free.2
      have empty : run.running = [] := length_eq_zero_iff.mp (readers.symm.trans unread)
      refine .writing ⟨.write, run.calls⟩ rfl ?_ rfl unread (undisturbed free)
      show run.running ++ _ = _
      rw [empty]
      rfl
  | writing writer writes alone active unread tasks =>
    cases access <;> simp [startsAtOnce, active] at free
  | waking writer writes empty inactive unread tasks =>
    have next : .resume writer ∈ run.microtasks := tasks ▸ .head _
    cases access with
    | read =>
      have reads := undisturbed free writer next
      rw [writes] at reads
      cases reads
    | write => exact (undisturbed free writer next).elim

theorem Orderly.settle (orderly : run.Orderly) (runs : caller ∈ run.running) :
    Orderly { run with microtasks := run.microtasks ++ [.finish caller] } := by
  cases orderly with
  | reading waking ending tasks inactive readers running waiting inside =>
    refine .reading waking (ending ++ [caller]) ?_ inactive readers running waiting fun other member => ?_
    · simp [tasks]
    · rcases mem_append.mp member with earlier | last
      · exact inside other earlier
      · cases mem_singleton.mp last
        exact runs
  | writing writer writes alone active unread tasks =>
    refine .writing writer writes alone active unread fun other member => ?_
    rcases mem_append.mp member with earlier | last
    · exact tasks other earlier
    · cases mem_singleton.mp last
  | waking writer writes empty inactive unread tasks =>
    rw [empty] at runs
    cases runs

theorem Orderly.release {lock : SingleWriterMultiReaderLock} (inactive : lock.writerActive = false) (unread : lock.readers = 0) (calls : Nat) :
    Orderly { lock := lock.checkQueues.1, running := [], microtasks := lock.checkQueues.2.map .resume, calls } := by
  have kept := checkQueues_writerActive lock
  have counted := checkQueues_readers lock
  cases queued : lock.writerQueue with
  | nil =>
    refine .reading lock.checkQueues.2 [] (append_nil _).symm (kept.trans inactive) (counted.trans unread) (fun _ member => by cases member) ?_
      fun _ member => by cases member
    intro caller member
    have woken : lock.checkQueues.2 = lock.readerQueue.map fun reader => ⟨.read, reader⟩ := by
      simp [checkQueues, inactive, unread, queued]
    rw [woken] at member
    obtain ⟨_, _, rfl⟩ := mem_map.mp member
    rfl
  | cons writer rest =>
    refine .waking ⟨.write, writer⟩ rfl rfl (kept.trans inactive) (counted.trans unread) ?_
    simp [checkQueues, inactive, unread, queued]

theorem Tracked.settled (tracked : run.Tracked) (tasks : run.microtasks = .finish caller :: rest) :
    .finish caller ∉ rest := by
  have counted := tracked.once caller
  rw [tasks, count_cons_self] at counted
  exact count_eq_zero.mp (by omega)

theorem Orderly.runTask (orderly : run.Orderly) (tracked : run.Tracked) (tasks : run.microtasks = task :: rest) :
    (run.runTask rest task).Orderly := by
  cases orderly with
  | reading waking ending ordered inactive readers running waiting inside =>
    rw [tasks] at ordered
    cases waking with
    | cons reader more =>
      obtain ⟨rfl, rfl⟩ := cons.inj ordered
      have reads := waiting reader (.head _)
      refine .reading more ending rfl ?_ ?_ ?_ (fun caller member => waiting caller (.tail _ member)) fun caller member =>
        mem_append_left _ (inside caller member)
      · simp [LockRun.runTask, reads, enter, inactive]
      · simp [LockRun.runTask, reads, enter, readers]
      · intro caller member
        rcases mem_append.mp member with earlier | last
        · exact running caller earlier
        · cases mem_singleton.mp last
          exact reads
    | nil =>
      cases ending with
      | nil => cases ordered
      | cons reader more =>
        obtain ⟨rfl, rfl⟩ := cons.inj ordered
        have gone := tracked.settled tasks
        have runs := inside reader (.head _)
        have reads := running reader runs
        have left : (run.running.erase reader).length = run.lock.readers - 1 := by rw [length_erase_of_mem runs, readers]
        have later : ∀ caller ∈ more, caller ∈ run.running.erase reader := by
          intro caller member
          have different : caller ≠ reader := fun same => gone (same ▸ mem_map_of_mem member)
          exact (mem_erase_of_ne different).mpr (inside caller (.tail _ member))
        rw [runTask_finish, reads]
        cases others : run.running.erase reader with
        | nil =>
          rw [others] at left later
          cases more with
          | cons caller _ => cases later caller (.head _)
          | nil => exact @Orderly.release { run.lock with readers := run.lock.readers - 1 } inactive left.symm run.calls
        | cons other rest =>
          have busy : SingleWriterMultiReaderLock.leave run.lock .read = ({ run.lock with readers := run.lock.readers - 1 }, []) := by
            rw [others, length_cons] at left
            simp [SingleWriterMultiReaderLock.leave, checkQueues, inactive, ← left]
          rw [busy, ← others]
          refine .reading [] more (append_nil _) inactive left.symm ?_ (fun _ member => by cases member) later
          exact fun caller member => running caller (mem_of_mem_erase member)
  | writing writer writes alone active unread unwoken =>
    cases task with
    | resume caller => exact (unwoken caller (tasks ▸ .head _)).elim
    | finish caller =>
      have only : ∀ other, .finish other ∈ run.microtasks → other = writer := by
        intro other member
        have runs := tracked.finishing other member
        rw [alone] at runs
        exact mem_singleton.mp runs
      have is := only caller (tasks ▸ .head _)
      have none : rest = [] := by
        rw [eq_nil_iff_forall_not_mem]
        intro later member
        cases later with
        | resume other => exact unwoken other (tasks ▸ .tail _ member)
        | finish other =>
          rw [only other (tasks ▸ .tail _ member), ← is] at member
          exact tracked.settled tasks member
      subst is none
      rw [runTask_finish, alone, writes, erase_cons_head]
      exact @Orderly.release { run.lock with writerActive := false } rfl unread run.calls
  | waking writer writes empty inactive unread ordered =>
    rw [tasks] at ordered
    obtain ⟨rfl, rfl⟩ := cons.inj ordered
    refine .writing writer writes ?_ ?_ ?_ fun caller member => by cases member
    · show run.running ++ [writer] = _
      rw [empty]
      rfl
    · simp [LockRun.runTask, writes, enter]
    · simp [LockRun.runTask, writes, enter, unread]

theorem Orderly.step (orderly : run.Orderly) (tracked : run.Tracked) {event} (undisturbed : run.Undisturbed event)
    (stepped : run.step event = some next) : next.Orderly := by
  cases event with
  | call access =>
    cases stepped
    exact orderly.call access undisturbed
  | settle caller =>
    simp only [LockRun.step] at stepped
    split at stepped
    · next allowed =>
      cases stepped
      exact orderly.settle allowed.1
    · cases stepped
  | turn =>
    simp only [LockRun.step] at stepped
    split at stepped
    · cases stepped
    · next task rest tasks =>
      cases stepped
      exact orderly.runTask tracked tasks

theorem Tracked.runs (tracked : run.Tracked) (events : List LockEvent) (ran : run.runs events = some last) : last.Tracked := by
  induction events generalizing run with
  | nil =>
    cases ran
    exact tracked
  | cons event rest ih =>
    obtain ⟨next, stepped, ran⟩ := Option.bind_eq_some_iff.mp ran
    exact ih (tracked.step stepped) ran

theorem Orderly.runs (orderly : run.Orderly) (tracked : run.Tracked) (events : List LockEvent) (calm : run.Calm events)
    (ran : run.runs events = some last) : last.Orderly := by
  induction events generalizing run with
  | nil =>
    cases ran
    exact orderly
  | cons event rest ih =>
    obtain ⟨next, stepped, ran⟩ := Option.bind_eq_some_iff.mp ran
    exact ih (orderly.step tracked calm.1 stepped) (tracked.step stepped) (calm.2 next stepped) ran

end

/-- In every run that nobody disturbs, one write function runs at a time and no read function
beside it; and in every run whatsoever, the queues of an idle lock are empty. -/
theorem runs_exclude (events : List LockEvent) (last : LockRun) (ran : ({} : LockRun).runs events = some last) :
    (Calm {} events → last.Excludes) ∧ (last.Idle → last.lock.readerQueue = [] ∧ last.lock.writerQueue = []) := by
  constructor
  · intro calm
    exact (Orderly.new.runs .new events calm ran).excludes
  · exact (Tracked.new.runs events ran).waited

/-- A writer runs and another waits; the first ends, and a reader calls before the second wakes up. -/
def overtaken : List LockEvent := [.call .write, .call .write, .settle ⟨.write, 0⟩, .turn, .call .read, .turn]

theorem overtaken_overlaps : ∃ last, ({} : LockRun).runs overtaken = some last ∧ ¬ last.Excludes := by
  refine ⟨{ lock := { readers := 1, writerActive := true }, running := [⟨.read, 2⟩, ⟨.write, 1⟩], calls := 3 }, by decide, fun excludes => ?_⟩
  cases excludes.2 ⟨⟨.write, 1⟩, by decide, rfl⟩ ⟨.read, 2⟩ (by decide)

/-- The same without the reader. -/
theorem runs_exclude_sample : LockRun.Excludes { lock := { writerActive := true }, running := [⟨.write, 1⟩], calls := 2 } := by
  refine (runs_exclude [.call .write, .call .write, .settle ⟨.write, 0⟩, .turn, .turn] _ (by decide)).1 ?_
  refine ⟨fun _ caller member => (by cases member), fun _ stepped => ?_⟩
  cases stepped
  refine ⟨fun _ caller member => (by cases member), fun _ stepped => ?_⟩
  cases stepped
  refine ⟨trivial, fun _ stepped => ?_⟩
  cases stepped
  refine ⟨trivial, fun _ stepped => ?_⟩
  cases stepped
  exact ⟨trivial, fun _ _ => trivial⟩

end WalletToolbox.LockRun

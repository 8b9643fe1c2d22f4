import WalletToolbox.Async.Guarded
import WalletToolbox.Proofs.StorePartition

/-! Any number of calls on one `WalletStorageManager`, interleaved. While the run of
`makeAvailable` that one of them started goes on, it has the division of the stores to
itself, unless another run starts or a store is added. -/

namespace WalletToolbox
open Async WalletStorageManager StoreManager

def nextRunning (running : Bool) : Event managedStores → Bool
  | ⟨.begin, .begun _⟩ => true
  | ⟨.select _ _, .finished _⟩ | ⟨.settings _, false⟩ | ⟨.user _, false⟩ => false
  | _ => running

def running (past : List (Event managedStores)) : Bool := past.foldl nextRunning false

theorem running_append (past) (event) :
    running (past ++ [event]) = nextRunning (running past) event := List.foldl_concat ..

/-- The operation starts a run, or takes the availability back. -/
def Starts (op : StoresOp) (manager : StoreManager) : Prop :=
  match op with
  | .begin => manager.isAvailable = false
  | .push => True
  | _ => False

/-- A caller leaves the division to whoever builds it, and leaves it whole. -/
def storeContract : Contract managedStores StoreManager where
  rely past before after := after.Settled ∧ (running past = true → SamePartition before after)
  permitted _ _ _ := True
  promises past op manager := (StoreManager.exec op manager).2.Settled ∧
    (running past = false → ¬ Starts op manager → SamePartition manager (StoreManager.exec op manager).2)

def Sound {ε α : Type} (program : Program managedStores ε α) : Prop :=
  ∀ past manager, program.Guarded StoreManager.exec storeContract (fun _ _ _ => True) past manager

def Untouching (op : StoresOp) : Prop := ∀ manager, SamePartition manager (StoreManager.exec op manager).2

section
variable {ε ε' α β : Type} {past : List (Event managedStores)} {manager : StoreManager} {store : Nat} {backups : List Nat}

theorem Sound.bind {program : Program managedStores ε α} {next : α → Program managedStores ε β} (sound : Sound program)
    (rest : ∀ value, Sound (next value)) : Sound (program >>= next) := by
  intro past manager
  refine Program.Guarded.bind ((sound past manager).mono fun more outcome after _ => ?_)
  cases outcome with
  | ok value => exact rest value more after
  | error error => trivial

theorem Sound.handle (sound : Sound program)
    (rest : ∀ error, Sound (handler error)) : Sound (program.handle handler) := by
  intro past manager
  refine Program.Guarded.handle ((sound past manager).mono fun more outcome after _ => ?_)
  cases outcome with
  | ok value => trivial
  | error error => exact rest error more after

theorem Sound.settle (sound : Sound program) :
    Sound (program.settle : Program managedStores ε' _) :=
  fun past manager => Program.Guarded.settle ((sound past manager).mono fun _ _ _ _ => trivial)

theorem Sound.translate {R : I.Op → Type} {implement : (op : I.Op) → Program managedStores ε (R op)}
    {reply} (sound : ∀ op, Sound (implement op)) (program : Program I ε' α) :
    Sound (program.translate implement reply) := by
  induction program with
  | done _ | fail _ => exact fun _ _ => trivial
  | await op next ih => exact (sound op).settle.bind fun outcome => ih _

theorem Untouching.sound (untouching : Untouching op) : Sound op.await := by
  intro past manager current relied _
  exact ⟨⟨(untouching current).settled relied.1, fun _ _ => untouching current⟩, trivial⟩

theorem settled_of_unavailable (unavailable : manager.isAvailable = false) : manager.Settled := by
  intro available
  rw [unavailable] at available
  cases available

def Awaited (store : Nat) (backups : List Nat) (more : List (Event managedStores)) (outcome : Except StoresError Unit) (after : StoreManager) : Prop :=
  ∀ value, outcome = .ok value → running more = true ∧ after.Selecting store backups ∧ after.needed store = false

theorem promises_running (runs : running past = true) (unavailable : (StoreManager.exec op manager).2.isAvailable = false) :
    storeContract.promises past op manager := by
  refine ⟨settled_of_unavailable unavailable, fun idle => ?_⟩
  rw [runs] at idle
  cases idle

theorem ensureStoreAvailable_guarded (runs : running past = true) (selecting : manager.Selecting store backups) :
    (ensureStoreAvailable store (manager.needed store)).Guarded StoreManager.exec storeContract (Awaited store backups) past manager := by
  unfold ensureStoreAvailable
  cases asked : manager.needed store with
  | false => exact fun _ _ => ⟨runs, selecting, asked⟩
  | true =>
    intro current relied _
    obtain ⟨kept, told⟩ := ((relied.2 runs).selecting selecting).setSettings
    refine ⟨promises_running runs kept.unavailable, ?_⟩
    have more := running_append past ⟨.settings store, (current.setSettings store).1⟩
    dsimp only [StoreManager.exec]
    cases resolved : (current.setSettings store).1 with
    | false => exact fun _ failed => by cases failed
    | true =>
      rw [resolved] at more told
      have runs := more.trans runs
      intro later relied _
      have same := relied.2 runs
      obtain ⟨kept, told⟩ := (same.selecting kept).setUser (same.hasSettings (told rfl))
      refine ⟨promises_running runs kept.unavailable, ?_⟩
      have more := running_append (past ++ [⟨.settings store, true⟩]) ⟨.user store, (later.setUser store).1⟩
      dsimp only [StoreManager.exec]
      cases resolved : (later.setUser store).1 with
      | false => exact fun _ failed => by cases failed
      | true =>
        rw [resolved] at more told
        exact fun _ _ => ⟨more.trans runs, kept, told rfl⟩

theorem makeAvailableFrom_guarded (rounds : Nat) (runs : running past = true) (selecting : manager.Selecting store backups) :
    (makeAvailableFrom rounds store backups (manager.needed store)).Guarded StoreManager.exec storeContract (fun _ _ _ => True) past manager := by
  induction rounds generalizing past manager store backups with
  | zero => trivial
  | succ rounds ih =>
    unfold makeAvailableFrom
    refine Program.Guarded.bind ((ensureStoreAvailable_guarded runs selecting).mono fun more outcome after awaited => ?_)
    cases outcome with
    | error error => trivial
    | ok _ =>
      obtain ⟨runs, selecting, answered⟩ := awaited () rfl
      intro current relied _
      have same := relied.2 runs
      have now := (same.selecting selecting).select_cases ((same.needed store).trans answered)
      have next := running_append more ⟨.select store backups, (current.select store backups).1⟩
      rcases now with ⟨others, selected, further⟩ | ⟨settings, finished, divided⟩
      · refine ⟨promises_running runs further.unavailable, ?_⟩
        dsimp only [StoreManager.exec]
        rw [selected] at next ⊢
        exact ih (next.trans runs) further
      · refine ⟨⟨fun _ => divided, fun idle => absurd runs (by rw [idle]; exact Bool.false_ne_true)⟩, ?_⟩
        dsimp only [StoreManager.exec]
        rw [finished]
        trivial

theorem makeAvailable_sound (rounds : Nat) : Sound (makeAvailable rounds) := by
  intro past manager current relied _
  have begins := running_append past ⟨.begin, current.begin.1⟩
  unfold storeContract
  dsimp only [StoreManager.exec]
  rcases begin_cases current with ⟨settings, is⟩ | ⟨unavailable, after, is, still⟩ | ⟨unavailable, after, is, selecting⟩
  · rw [is]
    exact ⟨⟨relied.1, fun _ _ => .refl _⟩, trivial⟩
  · rw [is]
    exact ⟨⟨settled_of_unavailable still, fun _ starts => absurd unavailable starts⟩, trivial⟩
  · rw [is] at begins ⊢
    refine ⟨⟨settled_of_unavailable selecting.unavailable, fun _ starts => absurd unavailable starts⟩, ?_⟩
    exact makeAvailableFrom_guarded rounds begins selecting

theorem push_sound : Sound StoresOp.push.await := by
  intro past manager current relied _
  exact ⟨⟨settled_of_unavailable rfl, fun _ starts => absurd trivial starts⟩, trivial⟩

theorem Sound.ite [Decidable condition] (left : Sound first) (right : Sound second) :
    Sound (if condition then first else second) := by
  split
  · exact left
  · exact right

theorem getAuth_sound (rounds : Nat) (mustBeActive : Bool) : Sound (getAuth rounds mustBeActive) := by
  have available : Sound StoresOp.isAvailable.await := Untouching.sound .refl
  have auth : Sound StoresOp.auth.await := Untouching.sound .refl
  have rest : Sound (do
      let authId ← StoresOp.auth.await
      if mustBeActive && authId.isActive ≠ some true then throw .notActive else return authId : StoresM AuthId) :=
    auth.bind fun authId => .ite (fun _ _ => trivial) fun _ _ => trivial
  unfold getAuth
  exact available.bind fun held => .ite ((makeAvailable_sound rounds).bind fun _ => rest) rest

theorem addWalletStorageProvider_sound (rounds : Nat) : Sound (addWalletStorageProvider rounds) := by
  have asked : Sound StoresOp.providerAvailable.await := Untouching.sound answer_same
  unfold addWalletStorageProvider
  refine asked.bind fun held => .ite (fun _ _ => trivial) (push_sound.bind fun _ => ?_)
  exact (makeAvailable_sound rounds).bind fun _ _ _ => trivial

theorem concurrentActionWriter_untouching : Untouching .concurrentActionWriter := by
  intro manager
  show SamePartition manager manager.concurrentActionWriter.2
  unfold StoreManager.concurrentActionWriter
  split
  · exact answer_same manager
  · exact .refl manager

theorem lock_untouching (op : LockOp) : Untouching (.lock op) := fun _ => ⟨rfl, rfl, rfl, rfl, rfl⟩

theorem implementLock_sound (rounds : Nat) (op : LockOp) : Sound (implementLock rounds op) := by
  cases op with
  | ask question =>
    cases question with
    | isAvailable | verifyActive => exact Untouching.sound .refl
    | makeAvailable => exact (makeAvailable_sound rounds).bind fun _ _ _ => trivial
    | concurrentActionWriter => exact concurrentActionWriter_untouching.sound
    | isStorageProvider | callback => exact (lock_untouching _).sound
  | push | lock | getActionWriterSharedLock | countShared | releaseActionWriterSharedLock | release => exact (lock_untouching _).sound

theorem storeCall_sound (rounds : Nat) (call : StoreCall) : Sound (call.program rounds) := by
  cases call with
  | makeAvailable => exact (makeAvailable_sound rounds).bind fun _ _ _ => trivial
  | getAuth mustBeActive => exact (getAuth_sound rounds mustBeActive).bind fun _ _ _ => trivial
  | addWalletStorageProvider => exact addWalletStorageProvider_sound rounds
  | runAs method => exact (Sound.translate (implementLock_sound rounds) _).handle fun _ _ _ => trivial

end

abbrev StorePool (ι : Type) := Pool managedStores StoresError Unit StoreManager ι

section
variable {ι : Type} {start : StoreManager} {rounds : ι → Nat} {calls : ι → StoreCall} {pool : StorePool ι}

def startStoreCalls (start : StoreManager) (rounds : ι → Nat) (calls : ι → StoreCall) : StorePool ι :=
  .start start fun caller => (calls caller).program (rounds caller)

def RunsApart (pool : StorePool ι) (caller : ι) : Prop :=
  ∀ op next, (pool.task caller).program = .await op next → Starts op pool.store → ∀ other, running (pool.task other).past = false

def RunsAlone (pool : StorePool ι) (caller : ι) : Prop :=
  RunsApart pool caller ∧ ∀ other, other ≠ caller → running (pool.task other).past = true → running (pool.task caller).past = false

def OneRunning (pool : StorePool ι) : Prop :=
  ∀ first second, running (pool.task first).past = true → running (pool.task second).past = true → first = second

theorem stores_contracted : Pool.Contracted StoreManager.exec (RunsAlone (ι := ι)) Settled (fun _ => storeContract) (fun _ _ _ _ => True) where
  steady _ _ manager settled := ⟨settled, fun _ => .refl manager⟩
  trans _ _ _ _ _ earlier later := ⟨later.1, fun runs => (earlier.2 runs).trans (later.2 runs)⟩
  stable _ _ _ _ _ _ _ := trivial
  permits _ _ _ _ _ _ _ := trivial
  keeps _ _ _ _ _ _ _ promised := promised.1
  spares pool caller other op next _ alone awaiting promised different := by
    refine ⟨promised.1, fun runs => promised.2 (alone.2 other different runs) fun starts => ?_⟩
    have idle := alone.1 op next awaiting starts other
    rw [runs] at idle
    cases idle

theorem starts_of_nextRunning
    (runs : nextRunning false ⟨op, (StoreManager.exec op manager).1⟩ = true) : Starts op manager := by
  cases op with
  | begin =>
    rcases begin_cases manager with ⟨settings, is⟩ | ⟨unavailable, -⟩ | ⟨unavailable, -⟩
    · simp only [StoreManager.exec, is] at runs
      cases runs
    · exact unavailable
    · exact unavailable
  | select | settings | user =>
    simp only [nextRunning] at runs
    split at runs <;> simp_all
  | providerAvailable | push | isAvailable | verifyActive | concurrentActionWriter | auth | lock => cases runs

variable [DecidableEq ι]

/-- At most one run goes on at a time. -/
theorem one_running (reached : Pool.Reaches StoreManager.exec RunsApart (startStoreCalls start rounds calls) pool) :
    OneRunning pool := by
  have none : OneRunning (startStoreCalls start rounds calls) := fun _ _ runs => by cases runs
  refine reached.invariant none ?_
  intro pool mover after _ held apart moves first second runsFirst runsSecond
  obtain ⟨op, next, awaiting, -, tasks⟩ := Pool.advance_cases moves
  have other : ∀ caller, caller ≠ mover → running (after.task caller).past = true → running (pool.task caller).past = true := by
    intro caller different runs
    rwa [tasks, Function.update_of_ne different] at runs
  have moved : running (after.task mover).past = true → running (pool.task mover).past = true ∨ Starts op pool.store := by
    intro runs
    rw [tasks, Function.update_self, running_append] at runs
    by_cases before : running (pool.task mover).past = true
    · exact .inl before
    · rw [Bool.eq_false_iff.mpr before] at runs
      exact .inr (starts_of_nextRunning runs)
  have mixed : ∀ caller, caller ≠ mover → running (after.task caller).past = true → running (after.task mover).past = true → False := by
    intro caller different runs runsMover
    rcases moved runsMover with before | starts
    · exact different (held _ _ (other caller different runs) before)
    · have idle := apart op next awaiting starts caller
      rw [other caller different runs] at idle
      cases idle
  by_cases firstMoves : first = mover
  · subst firstMoves
    by_cases secondMoves : second = first
    · exact secondMoves.symm
    · exact (mixed second secondMoves runsSecond runsFirst).elim
  · by_cases secondMoves : second = mover
    · subst secondMoves
      exact (mixed first firstMoves runsFirst runsSecond).elim
    · exact held _ _ (other first firstMoves runsFirst) (other second secondMoves runsSecond)

/-- Whenever the manager is available its stores are divided, in every run in which no run
of `makeAvailable` starts and no store is added while another goes on. -/
theorem stores_partitioned (settled : start.Settled)
    (reached : Pool.Reaches StoreManager.exec RunsApart (startStoreCalls start rounds calls) pool) : pool.store.Settled := by
  have alone : Pool.Reaches StoreManager.exec RunsAlone (startStoreCalls start rounds calls) pool := by
    refine reached.restrict fun pool caller reached apart => ⟨apart, fun other different runs => ?_⟩
    refine Bool.eq_false_iff.mpr fun also => different ?_
    exact one_running reached _ _ runs also
  exact (alone.guarded stores_contracted settled
    fun caller => storeCall_sound (rounds caller) (calls caller) [] _).1

end

def twoStorages (index : Nat) : StorageAnswer where
  settings := some ⟨if index < 2 then "first" else "second"⟩
  user := some ⟨1, "user", "first"⟩
  holds := true

def twoStores : StoreManager := .new 2 twoStorages fun _ => true

def twoCalls : Bool → StoreCall
  | false => .makeAvailable
  | true => .getAuth false

def startTwoCalls : StorePool Bool := startStoreCalls twoStores (fun _ => 2) twoCalls

/-- The second call starts a run of its own between the two stores of the first. -/
theorem stores_mixed :
    ∃ pool, Pool.Reaches StoreManager.exec Pool.anyStep startTwoCalls pool ∧ pool.store.isAvailable = true ∧
      pool.store.active = some 1 ∧ pool.store.backups = [] ∧ pool.store.conflictingActives = [] ∧
      pool.store.selectsItself 0 = true ∧ ¬ pool.store.Settled := by
  have runs : (startTwoCalls.follow StoreManager.exec [false, false, false, false, true, true, false, false, false]).map (fun pool =>
      (pool.store.isAvailable, pool.store.active, pool.store.backups, pool.store.conflictingActives, pool.store.selectsItself 0,
        pool.store.stores.length)) = some (true, some 1, [], [], true, 2) := by decide +kernel
  obtain ⟨pool, followed, ends⟩ := Option.map_eq_some_iff.mp runs
  simp only [Prod.mk.injEq] at ends
  obtain ⟨available, active, backups, conflicting, selects, length⟩ := ends
  refine ⟨pool, Pool.reaches_follow followed, available, active, backups, conflicting, selects, fun settled => ?_⟩
  obtain ⟨only, divided⟩ := settled available
  have counted := divided.once.length_eq
  rw [backups, conflicting, List.length_range, length] at counted
  cases counted

def startsApart (pool : StorePool Bool) (caller : Bool) : Bool :=
  match (pool.task caller).program with
  | .await .begin _ | .await .push _ => !running (pool.task false).past && !running (pool.task true).past
  | _ => true

theorem startsApart_runsApart (pool) (caller : Bool) (apart : startsApart pool caller = true) : RunsApart pool caller := by
  intro op next awaiting starts other
  have none : running (pool.task false).past = false ∧ running (pool.task true).past = false := by
    rw [startsApart, awaiting] at apart
    cases op with
    | begin | push => simpa using apart
    | select | settings | user | providerAvailable | isAvailable | verifyActive | concurrentActionWriter | auth | lock => exact starts.elim
  cases other
  · exact none.1
  · exact none.2

/-- The second call waits for the run of the first. -/
theorem stores_partitioned_apart :
    ∃ pool, Pool.Reaches StoreManager.exec RunsApart startTwoCalls pool ∧ pool.store.isAvailable = true ∧
      pool.store.active = some 0 ∧ pool.store.Settled := by
  have runs : (startTwoCalls.followWhile StoreManager.exec startsApart (List.replicate 7 false ++ [true, true])).map (fun pool =>
      (pool.store.isAvailable, pool.store.active)) = some (true, some 0) := by decide +kernel
  obtain ⟨pool, followed, ends⟩ := Option.map_eq_some_iff.mp runs
  simp only [Prod.mk.injEq] at ends
  have reached := Pool.reaches_followWhile startsApart_runsApart followed
  exact ⟨pool, reached, ends.1, ends.2, stores_partitioned (settled_of_unavailable rfl) reached⟩

end WalletToolbox

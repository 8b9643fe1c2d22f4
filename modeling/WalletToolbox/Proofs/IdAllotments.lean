import WalletToolbox.Async.Allotments
import WalletToolbox.Storage.IdBlocks

/-! The ids of a store with several providers. No id is handed out twice, whoever holds
its block; that none is taken already is up to the rows that bring their own. -/

namespace WalletToolbox
open Async List
open Function (update update_of_ne update_self)

def IdInstance.range (provider : IdInstance) (table : EntityTable) (refill : Bool) : Option NumberRange :=
  if refill then
    match provider.idBlockRefills table with
    | some (.reserved last) => some ⟨last - ROCKSDB_ID_BLOCK_SIZE + 1, last⟩
    | _ => none
  else (provider.idBlocks table).map fun block => ⟨block.next, block.last⟩

def IdWorld.allotment (world : IdWorld) (table : EntityTable) : Allotment (Nat × Bool) where
  counter := counterOf world.records table
  range holder := (world.instances holder.1).bind fun provider => provider.range table holder.2

section
variable {world after : IdWorld} {table : EntityTable}

theorem allotment_setCall (call : Nat) (state) : (world.setCall call state).allotment table = world.allotment table := rfl

theorem holds_setInstance :
    ((world.setInstance owner provider).allotment table).Holds holder n ↔
      if holder.1 = owner then ∃ range, (provider.bind fun provider => provider.range table holder.2) = some range ∧ range.first ≤ n ∧ n ≤ range.last
      else (world.allotment table).Holds holder n := by
  unfold Allotment.Holds IdWorld.allotment IdWorld.setInstance
  dsimp only
  by_cases same : holder.1 = owner
  · rw [if_pos same, same, update_self]
  · rw [if_neg same, update_of_ne same]

theorem sound_setInstance {used} (sound : (world.allotment table).Sound used) {owner before}
    (is : world.instances owner = before) {provider}
    (less : ∀ refill range, (provider.bind fun provider => provider.range table refill) = some range →
      (before.bind fun provider => provider.range table refill) = some range) :
    ((world.setInstance owner provider).allotment table).Sound used := by
  refine sound.fewer rfl fun holder n holds => ?_
  rw [holds_setInstance] at holds
  split at holds
  · next same =>
    obtain ⟨range, given, first, last⟩ := holds
    refine ⟨range, ?_, first, last⟩
    unfold IdWorld.allotment
    dsimp only
    rw [same, is]
    exact less holder.2 range given
  · exact holds

theorem allotment_update {owner provider next} (is : world.instances owner = some provider) {refill given} (here : next.range table refill = given) (other : next.range table (!refill) = provider.range table (!refill)) :
    (world.setInstance owner (some next)).allotment table =
      ⟨(world.allotment table).counter, update (world.allotment table).range (owner, refill) given⟩ := by
  unfold IdWorld.allotment IdWorld.setInstance
  dsimp only
  congr 1
  funext holder
  obtain ⟨which, kind⟩ := holder
  by_cases same : which = owner
  · subst same
    by_cases mine : kind = refill
    · subst mine
      rw [update_self, update_self]
      exact here
    · have flipped : kind = !refill := by cases kind <;> cases refill <;> simp_all
      rw [update_self, update_of_ne (by simpa using mine), is, flipped]
      exact other
  · rw [update_of_ne same, update_of_ne (by simpa using fun is => absurd is same)]

theorem counterOf_insert_entity (records) (table other) (key) (record) :
    counterOf (records.insert (.entity other key) record) table = counterOf records table := by
  unfold counterOf
  rw [AList.lookup_insert_ne (by simp)]

theorem counterOf_incrementNumber (records) (table other) (amount : Nat) :
    counterOf (incrementNumber other amount records).2 table = counterOf records table + if table = other then amount else 0 := by
  unfold incrementNumber counterOf
  dsimp only
  split
  · next same =>
    subst same
    rw [AList.lookup_insert]
    rfl
  · next differs => rw [AList.lookup_insert_ne (by simpa using differs), Nat.add_zero]

theorem allotment_putRow (other) (row) : (world.putRow other row).allotment table = world.allotment table := by
  unfold IdWorld.allotment IdWorld.putRow
  dsimp only
  rw [counterOf_insert_entity]

theorem range_setBlock (provider) (other) (block) (refill : Bool) :
    (IdWorld.setBlock provider other block).range table refill =
      if refill = false ∧ table = other then block.map fun block => ⟨block.next, block.last⟩ else provider.range table refill := by
  unfold IdInstance.range IdWorld.setBlock
  dsimp only
  by_cases same : table = other
  · subst same
    rw [update_self]
    cases refill <;> simp
  · rw [update_of_ne same]
    simp [same]

theorem range_setRefill (provider) (other) (given) (refill : Bool) :
    (IdWorld.setRefill provider other given).range table refill =
      if refill = true ∧ table = other then
        match given with
        | some (.reserved last) => some ⟨last - ROCKSDB_ID_BLOCK_SIZE + 1, last⟩
        | _ => none
      else provider.range table refill := by
  unfold IdInstance.range IdWorld.setRefill
  dsimp only
  by_cases same : table = other
  · subst same
    rw [update_self]
    cases refill <;> simp
  · rw [update_of_ne same]
    simp [same]

/-- Everything an action can do. -/
inductive IdWorld.Does (world : IdWorld) : IdAction → IdWorld → Prop
  | opens (owner : Nat) (absent : world.instances owner = none) : Does world (.opens owner) (world.setInstance owner (some .opened))
  | drops (owner : Nat) : Does world (.drops owner)
      { world.setInstance owner none with calls := fun call => (world.calls call).filter fun state => state.owner ≠ owner }
  | insert (call owner : Nat) (table : EntityTable) (row : Row table) (absent : world.calls call = none) :
      Does world (.insert call owner table row) (world.setCall call (some ⟨owner, table, row, false⟩))
  | take (call : Nat) (state : InsertCall) (provider : IdInstance) (block : IdBlock) (calls : world.calls call = some state)
      (is : world.instances state.owner = some provider) (has : provider.idBlocks state.table = some block) (left : block.next ≤ block.last)
      (waits : rowId state.table state.row = some 0) :
      Does world (.take call)
        ((world.setInstance state.owner (some (setBlock provider state.table (some ⟨block.next + 1, block.last⟩)))).setCall call
          (some (state.withId block.next)))
  | refill (call : Nat) (state : InsertCall) (provider : IdInstance) (calls : world.calls call = some state)
      (is : world.instances state.owner = some provider) (idle : provider.idBlockRefills state.table = none) :
      Does world (.refill call) (world.setInstance state.owner (some (setRefill provider state.table (some .pending))))
  | increment (owner : Nat) (table : EntityTable) (provider : IdInstance) (is : world.instances owner = some provider)
      (pending : provider.idBlockRefills table = some .pending) :
      Does world (.increment owner table)
        ({ world with records := (incrementNumber table ROCKSDB_ID_BLOCK_SIZE world.records).2 }.setInstance owner
          (some (setRefill provider table (some (.reserved (incrementNumber table ROCKSDB_ID_BLOCK_SIZE world.records).1)))))
  | refilled (owner : Nat) (table : EntityTable) (provider : IdInstance) (last : Nat) (is : world.instances owner = some provider)
      (reserved : provider.idBlockRefills table = some (.reserved last)) :
      Does world (.refilled owner table)
        (world.setInstance owner (some (setRefill (setBlock provider table (some ⟨last - ROCKSDB_ID_BLOCK_SIZE + 1, last⟩)) table none)))
  | refillFails (owner : Nat) (table : EntityTable) (provider : IdInstance) (is : world.instances owner = some provider)
      (pending : provider.idBlockRefills table = some .pending) :
      Does world (.refillFails owner table) (world.setInstance owner (some (setRefill provider table none)))
  | put (call : Nat) (state : InsertCall) (calls : world.calls call = some state) (ready : rowId state.table state.row ≠ some 0) :
      Does world (.put call) ((world.putRow state.table state.row).setCall call none)
  | rejects (call : Nat) : Does world (.rejects call) (world.setCall call none)

theorem blockOf_some (is : world.instances state.owner = some provider)
    (found : world.blockOf state = some block) : provider.idBlocks state.table = some block ∧ block.next ≤ block.last := by
  unfold IdWorld.blockOf at found
  rw [is, Option.bind_some, Option.filter_eq_some_iff] at found
  exact ⟨found.1, by simpa using found.2⟩

theorem step_does (does : IdWorld.step action world = some after) : world.Does action after := by
  cases action with
  | opens owner =>
    simp only [IdWorld.step] at does
    split at does
    · next absent =>
      cases does
      exact .opens owner absent
    · cases does
  | drops owner =>
    cases does
    exact .drops owner
  | insert call owner table row =>
    simp only [IdWorld.step] at does
    split at does
    · next absent =>
      cases does
      exact .insert call owner table row absent
    · cases does
  | take call =>
    simp only [IdWorld.step] at does
    split at does
    · cases does
    · next state calls =>
      split at does
      · next provider block is found =>
        split at does
        · next waits =>
          cases does
          obtain ⟨has, left⟩ := blockOf_some is found
          exact .take call state provider block calls is has left (by simpa [InsertCall.waits] using waits)
        · cases does
      · cases does
  | refill call =>
    simp only [IdWorld.step] at does
    split at does
    · cases does
    · next state calls =>
      split at does
      · next provider is _ =>
        split at does
        · next idle =>
          cases does
          exact .refill call state provider calls is idle.2
        · cases does
      · cases does
  | increment owner table =>
    simp only [IdWorld.step] at does
    split at does
    · cases does
    · next provider is =>
      split at does
      · next pending =>
        cases does
        exact .increment owner table provider is pending
      · cases does
  | refilled owner table =>
    simp only [IdWorld.step] at does
    split at does
    · cases does
    · next provider is =>
      split at does
      · next last reserved =>
        cases does
        exact .refilled owner table provider last is reserved
      · cases does
  | refillFails owner table =>
    simp only [IdWorld.step] at does
    split at does
    · cases does
    · next provider is =>
      split at does
      · next pending =>
        cases does
        exact .refillFails owner table provider is pending
      · cases does
  | put call =>
    simp only [IdWorld.step] at does
    split at does
    · cases does
    · next state calls =>
      split at does
      · cases does
      · next ready =>
        cases does
        exact .put call state calls (by simpa [InsertCall.waits] using ready)
  | rejects call =>
    cases does
    exact .rejects call

theorem handedBy_take (calls : world.calls call = some state)
    (is : world.instances state.owner = some provider) (has : provider.idBlocks state.table = some block) (left : block.next ≤ block.last) :
    world.handedBy (.take call) = [(state.table, block.next)] := by
  have found : world.blockOf state = some block := by
    unfold IdWorld.blockOf
    rw [is, Option.bind_some, has]
    exact Option.filter_eq_some_iff.mpr ⟨rfl, by simpa using left⟩
  simp only [IdWorld.handedBy]
  rw [calls]
  dsimp only
  rw [found]
  rfl

theorem step_allots {action} (does : world.Does action after) {used} (sound : (world.allotment table).Sound used) :
    (after.allotment table).Sound (fun n => used n ∨ (table, n) ∈ world.handedBy action) ∧ ∀ n, (table, n) ∈ world.handedBy action → ¬ used n := by
  have quiet : ∀ {other : IdWorld}, (other.allotment table).Sound used →
      (other.allotment table).Sound (fun n => used n ∨ (table, n) ∈ ([] : List (EntityTable × Nat))) ∧
        ∀ n, (table, n) ∈ ([] : List (EntityTable × Nat)) → ¬ used n := fun sound => by simpa using sound
  cases does with
  | opens owner absent =>
    refine quiet (sound_setInstance sound absent fun refill range given => ?_)
    cases refill <;> cases given
  | drops owner => exact quiet (@sound_setInstance world _ _ sound owner _ rfl none fun refill range given => (by cases given))
  | insert call owner other row absent => exact quiet sound
  | take call state provider block calls is has left waits =>
    rw [handedBy_take calls is has left, allotment_setCall]
    by_cases same : table = state.table
    · subst same
      have taken := @Allotment.Sound.take _ _ _ _ sound (state.owner, false) ⟨block.next, block.last⟩
        (by simp [IdWorld.allotment, is, IdInstance.range, has]) left
      rw [@allotment_update _ _ _ _ _ is false (some ⟨block.next + 1, block.last⟩) (by simp [range_setBlock]) (by simp [range_setBlock])]
      simpa using taken
    · have same' : ∀ n, (table, n) ∈ [(state.table, block.next)] ↔ False := by simp [same]
      simp only [same', or_false, false_implies, implies_true, and_true]
      refine sound_setInstance sound is fun refill range given => ?_
      rw [Option.bind_some, range_setBlock, if_neg (by simp [same])] at given
      exact given
  | refill _ _ _ _ is | refillFails _ _ _ is =>
    refine quiet (sound_setInstance sound is fun refill range given => ?_)
    rw [Option.bind_some, range_setRefill] at given
    split at given
    · cases given
    · exact given
  | increment owner other provider is pending =>
    apply quiet
    obtain ⟨raised, same⟩ : ∃ raised : IdWorld, raised = { world with records := (incrementNumber other ROCKSDB_ID_BLOCK_SIZE world.records).2 } := ⟨_, rfl⟩
    have is' : raised.instances owner = some provider := same ▸ is
    rw [← same]
    by_cases mine : table = other
    · subst mine
      rw [@allotment_update _ _ _ _ _ is' true (some ⟨counterOf world.records table + 1, counterOf world.records table + ROCKSDB_ID_BLOCK_SIZE⟩)
        (by simp [range_setRefill, incrementNumber]) (by simp [range_setRefill])]
      have reserved := sound.reserve (owner, true) ROCKSDB_ID_BLOCK_SIZE
      have counter : (raised.allotment table).counter = (world.allotment table).counter + ROCKSDB_ID_BLOCK_SIZE := by
        have rises := counterOf_incrementNumber world.records table table ROCKSDB_ID_BLOCK_SIZE
        rw [if_pos rfl] at rises
        rw [same]
        exact rises
      have ranges : (raised.allotment table).range = (world.allotment table).range := by
        rw [same]
        rfl
      rw [counter, ranges]
      exact reserved
    · have alike : raised.allotment table = world.allotment table := by
        rw [same]
        unfold IdWorld.allotment
        dsimp only
        rw [counterOf_incrementNumber, if_neg mine, Nat.add_zero]
      refine sound_setInstance (alike ▸ sound) is' fun refill range given => ?_
      rw [Option.bind_some, range_setRefill, if_neg (by simp [mine])] at given
      exact given
  | refilled owner other provider last is reserved =>
    apply quiet
    have ranges : ∀ refill, (IdWorld.setRefill (IdWorld.setBlock provider other (some ⟨last - ROCKSDB_ID_BLOCK_SIZE + 1, last⟩)) other none).range table refill =
        if table = other then if refill then none else provider.range table true else provider.range table refill := by
      intro refill
      rw [range_setRefill, range_setBlock]
      by_cases mine : table = other
      · subst mine
        cases refill <;> simp [IdInstance.range, reserved]
      · simp [mine]
    by_cases mine : table = other
    · subst mine
      refine (sound.pass (owner, true) (owner, false)).fewer rfl fun holder n holds => ?_
      obtain ⟨which, refill⟩ := holder
      rw [holds_setInstance] at holds
      rw [Allotment.holds_update, Allotment.holds_update]
      split at holds
      · next here =>
        obtain rfl : which = owner := here
        rw [Option.bind_some, ranges, if_pos rfl] at holds
        cases refill with
        | false =>
          rw [if_pos rfl]
          simpa [IdWorld.allotment, is] using holds
        | true =>
          obtain ⟨_, none, _⟩ := holds
          cases none
      · next elsewhere =>
        have apart : ∀ kind, (which, refill) ≠ (owner, kind) := fun kind same => elsewhere (congrArg Prod.fst same)
        rw [if_neg (apart false), if_neg (apart true)]
        exact holds
    · refine sound_setInstance sound is fun refill range given => ?_
      rw [Option.bind_some, ranges, if_neg mine] at given
      exact given
  | put call state calls ready =>
    apply quiet
    rw [allotment_setCall, allotment_putRow]
    exact sound
  | rejects call => exact quiet sound

inductive IdRun (allowed : IdWorld → IdAction → Prop) : List (EntityTable × Nat) → IdWorld → Prop
  | start : IdRun allowed [] .empty
  | step {handed : List (EntityTable × Nat)} {world after : IdWorld} {action : IdAction} (run : IdRun allowed handed world)
      (permitted : allowed world action) (does : IdWorld.step action world = some after) : IdRun allowed (handed ++ world.handedBy action) after

variable {handed : List (EntityTable × Nat)} {allowed : IdWorld → IdAction → Prop}

theorem allotment_empty : IdWorld.empty.allotment table = ⟨0, fun _ => none⟩ := rfl

theorem IdRun.handed_sound (run : IdRun allowed handed world) (table) :
    (world.allotment table).Sound fun n => (table, n) ∈ handed := by
  induction run with
  | start =>
    rw [allotment_empty]
    simpa using Allotment.sound_empty
  | step _ _ does ih =>
    simpa using (step_allots (step_does does) ih).1

theorem handedBy_one (action) : world.handedBy action = [] ∨ ∃ given, world.handedBy action = [given] := by
  cases action with
  | take call =>
    simp only [IdWorld.handedBy]
    split
    · exact .inl rfl
    · next state _ =>
      cases world.blockOf state with
      | none => exact .inl rfl
      | some block => exact .inr ⟨_, rfl⟩
  | opens | drops | insert | refill | increment | refilled | refillFails | put | rejects => exact .inl rfl

theorem IdRun.nodup (run : IdRun allowed handed world) : handed.Nodup := by
  induction run with
  | start => exact nodup_nil
  | @step handed world after action earlier _ does ih =>
    rcases @handedBy_one world action with none | ⟨⟨table, id⟩, one⟩
    · rw [none, append_nil]
      exact ih
    · have fresh := (step_allots (step_does does) (earlier.handed_sound table)).2 id (by rw [one]; exact mem_singleton_self _)
      rw [one]
      exact List.Nodup.append ih (nodup_singleton _) (by simpa using fresh)

/-- The row of the call takes the place of no other, now or later: its id, if it has one, is
reserved already, and in no one's hands. -/
def FreeFor (world : IdWorld) (call : InsertCall) : Prop :=
  world.records.row call.table (rowKey call.table call.row) = none ∧
    ∀ id, rowId call.table call.row = some id → id ≤ counterOf world.records call.table ∧
      (∀ holder, ¬ (world.allotment call.table).Holds holder id) ∧
      ∀ other state, world.calls other = some state → state.allocated = true → state.table = call.table → rowId state.table state.row ≠ some id

def OwnIdsFree (world : IdWorld) (action : IdAction) : Prop :=
  ∀ call state, action = .put call → world.calls call = some state → state.allocated = false → FreeFor world state

structure IdsFresh (handed : List (EntityTable × Nat)) (world : IdWorld) : Prop where
  sound : ∀ table, (world.allotment table).Sound fun n => (table, n) ∈ handed ∨ world.records.row table (.id n) ≠ none
  ready : ∀ call state, world.calls call = some state → state.allocated = true →
    ∃ id, rowId state.table state.row = some id ∧ (state.table, id) ∈ handed ∧ world.records.row state.table (.id id) = none
  alone : ∀ first second one two, world.calls first = some one → world.calls second = some two → one.allocated = true → two.allocated = true →
    one.table = two.table → rowId one.table one.row = rowId two.table two.row → first = second

theorem idsFresh_empty : IdsFresh [] .empty where
  sound table := by
    have unused : (fun n => (table, n) ∈ ([] : List (EntityTable × Nat)) ∨ IdWorld.empty.records.row table (.id n) ≠ none) = fun _ => False := by
      funext n
      simp [IdWorld.empty]
    rw [allotment_empty, unused]
    exact Allotment.sound_empty
  ready _ _ calls := by cases calls
  alone _ _ _ _ calls := by cases calls

theorem IdsFresh.kept (fresh : IdsFresh handed world)
    (sound : ∀ table, (after.allotment table).Sound fun n => (table, n) ∈ handed ∨ world.records.row table (.id n) ≠ none)
    (rows : ∀ table n, after.records.row table (.id n) = world.records.row table (.id n))
    (calls : ∀ call state, after.calls call = some state → state.allocated = true → world.calls call = some state) : IdsFresh handed after where
  sound table := by
    simp only [rows]
    exact sound table
  ready call state has allocated := by
    simp only [rows]
    exact fresh.ready call state (calls call state has allocated) allocated
  alone first second one two hasOne hasTwo oneAllocated twoAllocated :=
    fresh.alone first second one two (calls first one hasOne oneAllocated) (calls second two hasTwo twoAllocated) oneAllocated twoAllocated

theorem setCall_some (has : (world.setCall call given).calls other = some state) :
    other = call ∧ given = some state ∨ other ≠ call ∧ world.calls other = some state := by
  unfold IdWorld.setCall at has
  dsimp only at has
  by_cases same : other = call
  · subst same
    rw [update_self] at has
    exact .inl ⟨rfl, has⟩
  · rw [update_of_ne same] at has
    exact .inr ⟨same, has⟩

theorem rowKey_eq_id : rowKey table row = .id n ↔ rowId table row = some n := by
  cases table <;> simp [rowKey, rowId]

theorem putRow_row (other) (row) (n : Nat) : (world.putRow other row).records.row table (.id n) ≠ none ↔
    world.records.row table (.id n) ≠ none ∨ (table = other ∧ rowId other row = some n) := by
  unfold IdWorld.putRow
  dsimp only
  by_cases same : table = other ∧ rowId other row = some n
  · obtain ⟨rfl, has⟩ := same
    rw [rowKey_eq_id.mpr has]
    unfold Records.row
    rw [AList.lookup_insert]
    simp [has]
  · unfold Records.row
    rw [AList.lookup_insert_ne]
    · simp [same]
    · intro is
      rw [StorageKey.entity.injEq] at is
      exact same ⟨is.1, rowKey_eq_id.mp is.2.symm⟩

theorem IdsFresh.step (fresh : IdsFresh handed world) {action} (does : world.Does action after) (permitted : OwnIdsFree world action) :
    IdsFresh (handed ++ world.handedBy action) after := by
  have allots := fun table => @step_allots _ _ table _ does _ (fresh.sound table)
  have sameCalls : ∀ call state, world.calls call = some state → state.allocated = true → world.calls call = some state := fun _ _ has _ => has
  cases does with
  | opens | refill | refilled | refillFails =>
    simp only [IdWorld.handedBy, not_mem_nil, or_false, append_nil] at allots ⊢
    exact fresh.kept (fun table => (allots table).1) (fun _ _ => rfl) sameCalls
  | drops owner =>
    simp only [IdWorld.handedBy, not_mem_nil, or_false, append_nil] at allots ⊢
    exact fresh.kept (fun table => (allots table).1) (fun _ _ => rfl) fun call state has _ => (Option.filter_eq_some_iff.mp has).1
  | insert call owner table row absent =>
    simp only [IdWorld.handedBy, not_mem_nil, or_false, append_nil] at allots ⊢
    refine fresh.kept (fun table => (allots table).1) (fun _ _ => rfl) fun other state has allocated => ?_
    rcases setCall_some has with ⟨_, same⟩ | ⟨_, before⟩
    · cases same
      cases allocated
    · exact before
  | take call state provider block calls is has left waits =>
    rw [handedBy_take calls is has left] at allots ⊢
    obtain ⟨unused, unstored⟩ := not_or.mp ((allots state.table).2 block.next (mem_singleton_self _))
    have given : rowId state.table (state.withId block.next).row = some block.next := rowId_setRowId (by rw [waits]; rfl) _
    refine ⟨fun table => ?_, fun other next here allocated => ?_, fun first second one two hasOne hasTwo oneAllocated twoAllocated table id => ?_⟩
    · have same : (fun n => (table, n) ∈ handed ++ [(state.table, block.next)] ∨ world.records.row table (.id n) ≠ none) =
          fun n => ((table, n) ∈ handed ∨ world.records.row table (.id n) ≠ none) ∨ (table, n) ∈ [(state.table, block.next)] := by
        funext n
        rw [mem_append, or_right_comm]
      exact same ▸ (allots table).1
    · rcases setCall_some here with ⟨_, same⟩ | ⟨_, before⟩
      · cases same
        exact ⟨block.next, given, mem_append_right _ (mem_singleton_self _), not_not.mp unstored⟩
      · obtain ⟨id, own, member, free⟩ := fresh.ready other next before allocated
        exact ⟨id, own, mem_append_left _ member, free⟩
    · -- whoever had an id before has another one
      have differs : ∀ other next, world.calls other = some next → next.allocated = true → next.table = state.table →
          rowId next.table next.row ≠ some block.next := by
        intro other next before allocated same has
        obtain ⟨id, own, member, _⟩ := fresh.ready other next before allocated
        rw [own] at has
        cases has
        exact unused (same ▸ member)
      rcases setCall_some hasOne with ⟨rfl, sameOne⟩ | ⟨_, beforeOne⟩
      · rcases setCall_some hasTwo with ⟨rfl, _⟩ | ⟨_, beforeTwo⟩
        · rfl
        · cases sameOne
          exact absurd (id.symm.trans given) (differs second two beforeTwo twoAllocated table.symm)
      · rcases setCall_some hasTwo with ⟨rfl, sameTwo⟩ | ⟨_, beforeTwo⟩
        · cases sameTwo
          exact absurd (id.trans given) (differs first one beforeOne oneAllocated table)
        · exact fresh.alone first second one two beforeOne beforeTwo oneAllocated twoAllocated table id
  | increment owner other provider is pending =>
    simp only [IdWorld.handedBy, not_mem_nil, or_false, append_nil] at allots ⊢
    refine fresh.kept (fun table => (allots table).1) (fun table n => ?_) sameCalls
    exact AList.lookup_insert_ne (by simp)
  | put call state calls ready =>
    simp only [IdWorld.handedBy, not_mem_nil, or_false, append_nil] at allots ⊢
    have free := permitted call state rfl calls
    have stored : ∀ table n, ((world.putRow state.table state.row).setCall call none).records.row table (.id n) ≠ none ↔ _ := fun table n =>
      @putRow_row world table state.table state.row n
    -- no one else waits to put a row under the id
    have mine : ∀ other next, other ≠ call → world.calls other = some next → next.allocated = true → next.table = state.table →
        rowId next.table next.row ≠ rowId state.table state.row := by
      intro other next differs before allocated same id
      cases own : state.allocated with
      | true => exact differs (fresh.alone other call next state before calls allocated own same id)
      | false =>
        obtain ⟨has, named, _⟩ := fresh.ready other next before allocated
        exact ((free own).2 has (id.symm.trans named)).2.2 other next before allocated same named
    refine ⟨fun table => ?_, fun other next here allocated => ?_, fun first second one two hasOne hasTwo oneAllocated twoAllocated table id => ?_⟩
    · simp only [stored]
      by_cases own : state.allocated = false ∧ table = state.table ∧ rowId state.table state.row ≠ none
      · obtain ⟨own, rfl, some⟩ := own
        obtain ⟨id, named⟩ := Option.ne_none_iff_exists'.mp some
        obtain ⟨below, unheld, _⟩ := (free own).2 id named
        have used := @Allotment.Sound.use _ _ _ (allots state.table).1 id (by rw [allotment_setCall, allotment_putRow]; exact below)
          (fun holder => by rw [allotment_setCall, allotment_putRow]; exact unheld holder)
        have same : (fun n => (state.table, n) ∈ handed ∨ world.records.row state.table (.id n) ≠ none ∨ state.table = state.table ∧ rowId state.table state.row = .some n) =
            fun n => ((state.table, n) ∈ handed ∨ world.records.row state.table (.id n) ≠ none) ∨ n = id := by
          funext n
          rw [named, or_assoc]
          simp [eq_comm]
        exact same ▸ used
      · have same : (fun n => (table, n) ∈ handed ∨ world.records.row table (.id n) ≠ none ∨ table = state.table ∧ rowId state.table state.row = some n) =
            fun n => (table, n) ∈ handed ∨ world.records.row table (.id n) ≠ none := by
          funext n
          apply propext
          refine ⟨fun is => ?_, fun is => is.imp_right .inl⟩
          rcases is with member | before | ⟨rfl, named⟩
          · exact .inl member
          · exact .inr before
          · cases allocated : state.allocated with
            | true =>
              obtain ⟨id, has, member, _⟩ := fresh.ready call state calls allocated
              rw [named] at has
              cases has
              exact .inl member
            | false => exact absurd ⟨allocated, rfl, by rw [named]; simp⟩ own
        exact same ▸ (allots table).1
    · rcases setCall_some here with ⟨_, same⟩ | ⟨differs, before⟩
      · cases same
      · obtain ⟨id, named, member, unstored⟩ := fresh.ready other next before allocated
        refine ⟨id, named, member, not_not.mp fun is => ?_⟩
        rcases (stored next.table id).mp is with earlier | ⟨same, put⟩
        · exact earlier unstored
        · exact mine other next differs before allocated same (named.trans put.symm)
    · rcases setCall_some hasOne with ⟨_, same⟩ | ⟨_, beforeOne⟩
      · cases same
      · rcases setCall_some hasTwo with ⟨_, same⟩ | ⟨_, beforeTwo⟩
        · cases same
        · exact fresh.alone first second one two beforeOne beforeTwo oneAllocated twoAllocated table id
  | rejects call =>
    simp only [IdWorld.handedBy, not_mem_nil, or_false, append_nil] at allots ⊢
    refine fresh.kept (fun table => (allots table).1) (fun _ _ => rfl) fun other state has _ => ?_
    rcases setCall_some has with ⟨_, same⟩ | ⟨_, before⟩
    · cases same
    · exact before

theorem IdRun.fresh (run : IdRun OwnIdsFree handed world) : IdsFresh handed world := by
  induction run with
  | start => exact idsFresh_empty
  | step _ permitted does ih => exact ih.step (step_does does) permitted

end

def sampleUser (userId : Nat) (identityKey : String) : TableUser := ⟨userId, identityKey, ""⟩

def IdWorld.follow : List IdAction → IdWorld → Option IdWorld
  | [], world => some world
  | action :: rest, world => (IdWorld.step action world).bind (follow rest)

theorem IdRun.follow {allowed actions handed world after}
    (run : IdRun allowed handed world) (permitted : ∀ action ∈ actions, ∀ world, allowed world action)
    (does : IdWorld.follow actions world = some after) : ∃ more, IdRun allowed more after := by
  induction actions generalizing handed world with
  | nil =>
    cases does
    exact ⟨handed, run⟩
  | cons action rest ih =>
    obtain ⟨next, steps, later⟩ := Option.bind_eq_some_iff.mp does
    exact ih (.step run (permitted action (.head _) world) steps) (fun other member => permitted other (.tail _ member)) later

def firstBlock (call : Nat) : List IdAction :=
  [.insert call 0 .users (sampleUser 0 "a"), .refill call, .increment 0 .users, .refilled 0 .users]

end WalletToolbox

import WalletToolbox.Async.Pool
import WalletToolbox.Proofs.BatchWrites

/-! Whether the version of a record tells its value. A write computes the version it stores
from one it has read; where the record that is stored then is still the one it read, and
no key is written again after its record was deleted, no version is given twice. -/

namespace WalletToolbox
open Async Effects List

variable {V ι : Type}

/-- A change of the store, with the version that was stored just before. -/
inductive StoreEvent (V : Type) where
  | stored (key : String) (record : StoredRecord V) (replaced : Option Nat)
  | removed (key : String) (replaced : Option Nat)
deriving DecidableEq, Repr

def StoreEvent.apply (records : StoredRecords V) : StoreEvent V → StoredRecords V
  | .stored key record _ => Function.update records key (some record)
  | .removed key _ => Function.update records key none

def writeEvents (records : StoredRecords V) : List (String × StoredRecord V) → List (StoreEvent V)
  | [] => []
  | (key, record) :: rest => .stored key record (records.versions key) :: writeEvents (Function.update records key (some record)) rest

section
variable (engine : TransactionEngine V) (elapse : Nat → Nat)

/-- What an operation changes. -/
def storeEvents (op : RecordOp V) (store : RecordStore V) : List (StoreEvent V) :=
  match op with
  | .put key record => [.stored key record (store.records.versions key)]
  | .remove key => [.removed key (store.records.versions key)]
  | .commit =>
    match store.transaction with
    | some transaction => if engine.accepts transaction store.records = true then writeEvents store.records transaction.writes else []
    | none => []
  | _ => []

/-- The store with all its changes so far. -/
def withHistory : Machine (recordDb V) (RecordStore V × List (StoreEvent V)) := fun op (store, history) =>
  ((recordExec engine elapse op store).1, ((recordExec engine elapse op store).2, history ++ storeEvents engine op store))

end

inductive RecordCall (V : Type) where
  | put (args : PutArgs V)
  | delete (key : String)
  | batch (writes : List (BatchWrite V))
  | incrementNumber (key : String) (amount : Int)

def RecordCall.program (incremented : Option V → Int → V) : RecordCall V → RecordM V Unit
  | .put args => (RecordStore.put args).bind fun _ => .done ()
  | .delete key => RecordStore.delete key
  | .batch writes => (RecordStore.batch writes).bind fun _ => .done ()
  | .incrementNumber key amount => (RecordStore.incrementNumber incremented key amount).bind fun _ => .done ()

def StoreEvent.Current (history : List (StoreEvent V)) : StoreEvent V → Prop
  | .stored key record replaced => record.version = replaced.getD 0 + 1 ∧ ∀ event ∈ history, ∀ version, event ≠ .removed key (some version)
  | .removed _ _ => True

/-- A change is only made where it is current. -/
def CurrentStep (engine : TransactionEngine V) (pool : Pool (recordDb V) StoreError Unit (RecordStore V × List (StoreEvent V)) ι) (caller : ι) : Prop :=
  ∀ op next, (pool.task caller).program = .await op next → ∀ event ∈ storeEvents engine op pool.store.1, event.Current pool.store.2

def EverStored (initial : StoredRecords V) (history : List (StoreEvent V)) (key : String) (record : StoredRecord V) : Prop :=
  initial key = some record ∨ ∃ replaced, StoreEvent.stored key record replaced ∈ history

structure VersionsIdentify (initial : StoredRecords V) (history : List (StoreEvent V)) : Prop where
  records : ∀ key first second, EverStored initial history key first → EverStored initial history key second →
    first.version = second.version → first = second
  follow : ∀ key record replaced, .stored key record replaced ∈ history → record.version = replaced.getD 0 + 1
  notRevived : ∀ key version record replaced earlier later, history = earlier ++ .removed key (some version) :: later →
    .stored key record replaced ∉ later

structure VersionsKept (initial records : StoredRecords V) (history : List (StoreEvent V)) : Prop where
  identify : VersionsIdentify initial history
  newest : ∀ key, (∀ version, StoreEvent.removed key (some version) ∉ history) → ∀ record, EverStored initial history key record →
    ∃ current, records key = some current ∧ EverStored initial history key current ∧ record.version ≤ current.version

section
variable {initial records : StoredRecords V} {history : List (StoreEvent V)} {event : StoreEvent V}

theorem EverStored.append {key record} (stored : EverStored initial history key record)
    (more : List (StoreEvent V)) : EverStored initial (history ++ more) key record :=
  stored.imp_right fun ⟨replaced, member⟩ => ⟨replaced, mem_append_left more member⟩

theorem everStored_append :
    EverStored initial (history ++ [event]) key record ↔
      EverStored initial history key record ∨ ∃ replaced, event = .stored key record replaced := by
  unfold EverStored
  simp only [mem_append, mem_singleton, exists_or, or_assoc, eq_comm]

theorem append_eq_split
    (is : history ++ [event] = earlier ++ removed :: later) :
    later = [] ∧ event = removed ∨ ∃ before, later = before ++ [event] ∧ history = earlier ++ removed :: before := by
  rcases eq_nil_or_concat later with rfl | ⟨before, last, rfl⟩
  · exact .inl ⟨rfl, (append_inj' is rfl).2 |> cons.inj |>.1⟩
  · rw [concat_eq_append, ← cons_append, ← append_assoc] at is
    obtain ⟨same, lasts⟩ := append_inj' is rfl
    cases lasts
    exact .inr ⟨before, concat_eq_append, same⟩

namespace VersionsKept

theorem stored (kept : VersionsKept initial records history)
    (current : (StoreEvent.stored key record replaced).Current history) (fits : replaced = records.versions key) :
    VersionsKept initial (Function.update records key (some record)) (history ++ [.stored key record replaced]) := by
  obtain ⟨version, notRemoved⟩ := current
  -- Whatever was stored under the key has a smaller version.
  have older : ∀ other, EverStored initial history key other → other.version < record.version := by
    intro other stored
    obtain ⟨newest, is, -, le⟩ := kept.newest key (fun version member => notRemoved _ member version rfl) other stored
    have found : replaced = some newest.version := by rw [fits, StoredRecords.versions, is, Option.map_some]
    rw [version, found, Option.getD_some]
    omega
  constructor
  · constructor
    · intro other first second firstStored secondStored same
      rw [everStored_append] at firstStored secondStored
      obtain firstOld | ⟨_, firstNew⟩ := firstStored
      · obtain secondOld | ⟨_, secondNew⟩ := secondStored
        · exact kept.identify.records other first second firstOld secondOld same
        · cases secondNew
          have lt := older first firstOld
          omega
      · cases firstNew
        obtain secondOld | ⟨_, secondNew⟩ := secondStored
        · have lt := older second secondOld
          omega
        · cases secondNew
          rfl
    · intro other otherRecord otherReplaced member
      obtain old | new := mem_append.mp member
      · exact kept.identify.follow other otherRecord otherReplaced old
      · cases mem_singleton.mp new
        exact version
    · intro other removed otherRecord otherReplaced earlier later is member
      obtain ⟨rfl, -⟩ | ⟨before, rfl, split⟩ := append_eq_split is
      · exact not_mem_nil member
      · obtain old | new := mem_append.mp member
        · exact kept.identify.notRevived other removed otherRecord otherReplaced earlier before split old
        · cases mem_singleton.mp new
          refine notRemoved _ ?_ removed rfl
          rw [split]
          exact mem_append_right _ mem_cons_self
  · intro other unremoved otherRecord stored
    rw [everStored_append] at stored
    by_cases same : other = key
    · subst same
      refine ⟨record, Function.update_self .., everStored_append.mpr (.inr ⟨replaced, rfl⟩), ?_⟩
      obtain old | ⟨_, new⟩ := stored
      · exact Nat.le_of_lt (older otherRecord old)
      · cases new
        exact Nat.le_refl _
    · obtain old | ⟨_, new⟩ := stored
      · obtain ⟨newest, is, newestStored, le⟩ := kept.newest other (fun version member => unremoved version (mem_append_left _ member))
          otherRecord old
        exact ⟨newest, by rw [Function.update_of_ne same, is], newestStored.append _, le⟩
      · cases new
        exact absurd rfl same

theorem removed (kept : VersionsKept initial records history) (fits : replaced = records.versions key) :
    VersionsKept initial (Function.update records key none) (history ++ [.removed key replaced]) := by
  have old : ∀ {other record}, EverStored initial (history ++ [.removed key replaced]) other record → EverStored initial history other record := by
    intro other record stored
    obtain old | ⟨_, new⟩ := everStored_append.mp stored
    · exact old
    · cases new
  constructor
  · constructor
    · intro other first second firstStored secondStored same
      exact kept.identify.records other first second (old firstStored) (old secondStored) same
    · intro other record otherReplaced member
      obtain before | new := mem_append.mp member
      · exact kept.identify.follow other record otherReplaced before
      · cases mem_singleton.mp new
    · intro other version record otherReplaced earlier later is member
      obtain ⟨rfl, -⟩ | ⟨before, rfl, split⟩ := append_eq_split is
      · exact not_mem_nil member
      · obtain earlierMember | new := mem_append.mp member
        · exact kept.identify.notRevived other version record otherReplaced earlier before split earlierMember
        · cases mem_singleton.mp new
  · intro other unremoved record stored
    obtain ⟨newest, is, newestStored, le⟩ := kept.newest other (fun version member => unremoved version (mem_append_left _ member))
      record (old stored)
    by_cases same : other = key
    · subst same
      refine absurd ?_ (unremoved newest.version)
      rw [fits, StoredRecords.versions, is, Option.map_some]
      exact mem_append_right _ (mem_singleton.mpr rfl)
    · exact ⟨newest, by rw [Function.update_of_ne same, is], newestStored.append _, le⟩

theorem start (records : StoredRecords V) : VersionsKept records records [] where
  identify := {
    records := fun key first second firstStored secondStored _ => by
      obtain is | ⟨_, member⟩ := firstStored
      · obtain also | ⟨_, member⟩ := secondStored
        · exact Option.some.inj (is.symm.trans also)
        · exact absurd member not_mem_nil
      · exact absurd member not_mem_nil
    follow := fun _ _ _ member => absurd member not_mem_nil
    notRevived := fun _ _ _ _ earlier later is => by
      have member := is ▸ mem_append_right earlier mem_cons_self
      exact absurd member not_mem_nil }
  newest := fun key _ record stored => by
    obtain is | ⟨_, member⟩ := stored
    · exact ⟨record, is, .inl is, Nat.le_refl _⟩
    · exact absurd member not_mem_nil

/-- The writes of a transaction, one after the other. -/
theorem writes (kept : VersionsKept initial records history)
    (current : ∀ event ∈ writeEvents records written, event.Current history) :
    VersionsKept initial (records.applyWrites written) (history ++ writeEvents records written) := by
  induction written generalizing records history with
  | nil => rwa [writeEvents, append_nil]
  | cons write rest ih =>
    obtain ⟨key, record⟩ := write
    have first := kept.stored (current _ mem_cons_self) rfl
    have more : ∀ event ∈ writeEvents (Function.update records key (some record)) rest,
        event.Current (history ++ [.stored key record (records.versions key)]) := by
      intro event member
      have before := current event (mem_cons_of_mem _ member)
      cases event with
      | removed => trivial
      | stored other otherRecord replaced =>
        refine ⟨before.1, fun earlier inHistory version => ?_⟩
        obtain old | new := mem_append.mp inHistory
        · exact before.2 earlier old version
        · rw [mem_singleton.mp new]
          nofun
    rw [writeEvents, append_cons]
    exact ih first more

end VersionsKept

/-- One operation, when every change it makes is current. -/
theorem VersionsKept.step {engine elapse op store}
    (kept : VersionsKept initial store.records history) (current : ∀ event ∈ storeEvents engine op store, event.Current history) :
    VersionsKept initial (recordExec engine elapse op store).2.records (history ++ storeEvents engine op store) := by
  cases op with
  | put key record => exact kept.stored (current _ (mem_singleton.mpr rfl)) rfl
  | remove key => exact kept.removed rfl
  | commit =>
    unfold storeEvents at current ⊢
    unfold recordExec
    cases is : store.transaction with
    | none =>
      rw [append_nil]
      exact kept
    | some transaction =>
      rw [is] at current
      dsimp only at current ⊢
      by_cases accepted : engine.accepts transaction store.records = true
      · rw [if_pos accepted] at current ⊢
        rw [if_pos accepted]
        exact kept.writes current
      · rw [if_neg accepted] at current ⊢
        rw [if_neg accepted, append_nil]
        exact kept
  | get key | transactionGet key | transactionPut key record | begin | abort =>
    show VersionsKept initial store.records (history ++ [])
    rw [append_nil]
    exact kept

end

section
variable [DecidableEq ι] {engine : TransactionEngine V} {elapse : Nat → Nat} {incremented : Option V → Int → V} {calls : ι → RecordCall V}
  {store : RecordStore V} {pool : Pool (recordDb V) StoreError Unit (RecordStore V × List (StoreEvent V)) ι}

/-- In every run whose changes are current, a version stands for one record. -/
theorem versions_identify
    (reached : Pool.Reaches (withHistory engine elapse) (CurrentStep engine) (.start (store, []) fun caller => (calls caller).program incremented) pool) :
    VersionsIdentify store.records pool.store.2 := by
  have kept : VersionsKept store.records pool.store.1.records pool.store.2 := by
    refine @Pool.Reaches.invariant _ _ _ _ _ _ _ _ _ (fun pool => VersionsKept store.records pool.store.1.records pool.store.2)
      (.start store.records) ?_ _ reached
    intro pool caller after _ kept current moves
    obtain ⟨op, next, awaiting, same, -⟩ := Pool.advance_cases moves
    rw [same]
    exact kept.step (current op next awaiting)
  exact kept.identify

end

theorem current_stored_iff (history : List (StoreEvent Nat)) (key : String) (record : StoredRecord Nat) (replaced : Option Nat) :
    (record.version = replaced.getD 0 + 1 ∧
        ∀ event ∈ history, ¬ (match event with | .removed other (some _) => other = key | _ => false) = true) ↔
      (StoreEvent.stored key record replaced).Current history := by
  refine and_congr Iff.rfl (forall₂_congr fun event _ => ?_)
  cases event with
  | stored => simp
  | removed other replaced => cases replaced <;> simp

theorem current_removed (history : List (StoreEvent Nat)) (key : String) (replaced : Option Nat) :
    (StoreEvent.removed key replaced).Current history := trivial

instance (history : List (StoreEvent Nat)) (event : StoreEvent Nat) : Decidable (event.Current history) :=
  match event with
  | .stored key record replaced =>
    decidable_of_iff (record.version = replaced.getD 0 + 1 ∧
        ∀ event ∈ history, ¬ (match event with | .removed other (some _) => other = key | _ => false) = true)
      (current_stored_iff history key record replaced)
  | .removed key replaced => .isTrue (current_removed history key replaced)

def currentStep (pool : Pool (recordDb Nat) StoreError Unit (RecordStore Nat × List (StoreEvent Nat)) Bool) (caller : Bool) : Bool :=
  match (pool.task caller).program with
  | .await op _ => (storeEvents optimisticTransactions op pool.store.1).all fun event => event.Current pool.store.2
  | _ => true

def sampleCalls : Bool → RecordCall Nat
  | false => .put { key := "idem!1", value := 8 }
  | true => .put { key := "idem!1", value := 9, expectedVersion := some (some 1) }

def sampleRecordPool : Pool (recordDb Nat) StoreError Unit (RecordStore Nat × List (StoreEvent Nat)) Bool :=
  .start (storeOfOne, []) fun caller => (sampleCalls caller).program fun value amount => value.getD 0 + amount.toNat

theorem currentStep_sound (pool : Pool (recordDb Nat) StoreError Unit (RecordStore Nat × List (StoreEvent Nat)) Bool) (caller : Bool)
    (passes : currentStep pool caller = true) : CurrentStep optimisticTransactions pool caller := by
  intro op next awaiting event member
  unfold currentStep at passes
  rw [awaiting] at passes
  exact of_decide_eq_true (all_eq_true.mp passes event member)

/-- The compare-and-set and the plain put, one after the other. -/
theorem versions_identify_sample :
    ∃ pool : Pool (recordDb Nat) StoreError Unit (RecordStore Nat × List (StoreEvent Nat)) Bool,
      pool.store.2 = [.stored "idem!1" ⟨9, 2, 1⟩ (some 1), .stored "idem!1" ⟨8, 3, 4⟩ (some 2)] ∧
        VersionsIdentify storeOfOne.records pool.store.2 := by
  have runs : (sampleRecordPool.followWhile (withHistory optimisticTransactions (· + 1)) currentStep [true, true, true, true, false, false]).map
      (fun pool => pool.store.2) = some [.stored "idem!1" ⟨9, 2, 1⟩ (some 1), .stored "idem!1" ⟨8, 3, 4⟩ (some 2)] := by decide +kernel
  obtain ⟨pool, followed, history⟩ := Option.map_eq_some_iff.mp runs
  exact ⟨pool, history, versions_identify (Pool.reaches_followWhile currentStep_sound followed)⟩

/-- The compare-and-set in between the read and the write of the plain put: its value is overwritten under its own version. -/
theorem version_given_twice :
    ∃ pool, Pool.Reaches (withHistory optimisticTransactions (· + 1)) Pool.anyStep sampleRecordPool pool ∧
      ¬ VersionsIdentify storeOfOne.records pool.store.2 := by
  have runs : (sampleRecordPool.follow (withHistory optimisticTransactions (· + 1)) [false, true, true, true, true, false]).map
      (fun pool => pool.store.2) = some [.stored "idem!1" ⟨9, 2, 2⟩ (some 1), .stored "idem!1" ⟨8, 2, 0⟩ (some 2)] := by decide +kernel
  obtain ⟨pool, followed, history⟩ := Option.map_eq_some_iff.mp runs
  refine ⟨pool, Pool.reaches_follow followed, fun identify => ?_⟩
  rw [history] at identify
  have same := identify.records "idem!1" ⟨9, 2, 2⟩ ⟨8, 2, 0⟩ (.inr ⟨some 1, .head _⟩) (.inr ⟨some 2, .tail _ (.head _)⟩) rfl
  cases same

end WalletToolbox

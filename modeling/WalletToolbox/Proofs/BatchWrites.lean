import WalletToolbox.Effects.Fallible
import WalletToolbox.Storage.VersionedRecords

/-! Batches of the wallet store. The entries are written one by one, so what an entry has
written stays when another one fails: a batch with an entry that fails leaves the store as
it was only where its own entries undo one another. -/

namespace WalletToolbox
open Async Effects RecordStore List
open Function (update update_of_ne update_self)

variable {V : Type}

inductive RecordChange (V : Type) where
  | deleted
  | stored (value : V) (updatedAt : Nat)

def RecordChange.apply (record : Option (StoredRecord V)) : RecordChange V → Option (StoredRecord V)
  | .deleted => none
  | .stored value updatedAt => some ⟨value, (record.map StoredRecord.version).getD 0 + 1, updatedAt⟩

def StoredRecords.versions (records : StoredRecords V) (key : String) : Option Nat := (records key).map StoredRecord.version

def PutArgs.conflicts (args : PutArgs V) (currentVersion : Option Nat) : Prop :=
  args.expectedVersion ≠ none ∧ args.expectedVersion ≠ some currentVersion

instance (args : PutArgs V) (currentVersion : Option Nat) : Decidable (args.conflicts currentVersion) :=
  inferInstanceAs (Decidable (_ ∧ _))

section
variable (elapse : Nat → Nat)

/-- The entries applied in their order, unless one of them fails. -/
def applyBatch (time : Nat) (records : StoredRecords V) : List (BatchWrite V) → Option (StoredRecords V)
  | [] => some records
  | .delete key :: rest =>
    match normalizeKey key with
    | .error _ => none
    | .ok key => applyBatch (elapse time) (update records key (RecordChange.deleted.apply (records key))) rest
  | .put args :: rest =>
    match normalizeKey args.key, normalizeDate args.updatedAt time with
    | .ok key, .ok updatedAt =>
      if args.conflicts (records.versions key) then none
      else
        let change := RecordChange.stored args.value updatedAt
        applyBatch (elapse (elapse time)) (update records key (change.apply (records key))) rest
    | _, _ => none

/-- The entries that take effect, given the versions that are stored: those with the version
they expect, up to one that throws. -/
def takingEffect (time : Nat) (versions : String → Option Nat) : List (BatchWrite V) → List (String × RecordChange V)
  | [] => []
  | .delete key :: rest =>
    match normalizeKey key with
    | .error _ => []
    | .ok key => (key, .deleted) :: takingEffect (elapse time) (update versions key none) rest
  | .put args :: rest =>
    match normalizeKey args.key with
    | .error _ => []
    | .ok key =>
      if args.conflicts (versions key) then takingEffect (elapse time) versions rest
      else
        match normalizeDate args.updatedAt time with
        | .error _ => []
        | .ok updatedAt =>
          (key, .stored args.value updatedAt) ::
            takingEffect (elapse (elapse time)) (update versions key (some ((versions key).getD 0 + 1))) rest

end

def changesOf (key : String) (changes : List (String × RecordChange V)) : List (RecordChange V) :=
  (changes.filter (·.1 = key)).map Prod.snd

/-- The changes leave the record as it was: the last one deletes what was not there, or they end in the
very record that was stored, put after a delete as often as its version says. -/
def UndoOneAnother (record : Option (StoredRecord V)) (changes : List (RecordChange V)) : Prop :=
  changes = [] ∨ (record = none ∧ ∃ earlier, changes = earlier ++ [.deleted]) ∨
    ∃ earlier puts value updatedAt, changes = earlier ++ .deleted :: (puts ++ [.stored value updatedAt]) ∧
      RecordChange.deleted ∉ puts ∧ record = some ⟨value, puts.length + 1, updatedAt⟩

section
variable {engine : TransactionEngine V} {elapse : Nat → Nat}

theorem StoredRecords.versions_update (records : StoredRecords V) (key : String) (record) :
    StoredRecords.versions (update records key record) =
      update records.versions key (record.map StoredRecord.version) := by
  funext other
  unfold StoredRecords.versions
  by_cases same : other = key
  · subst same
    rw [update_self, update_self]
  · rw [update_of_ne same, update_of_ne same]

theorem changesOf_cons (key : String) (change : String × RecordChange V) (changes) :
    changesOf key (change :: changes) = if change.1 = key then change.2 :: changesOf key changes else changesOf key changes := by
  unfold changesOf
  rw [filter_cons]
  by_cases same : change.1 = key
  · rw [if_pos same, if_pos (decide_eq_true same), map_cons]
  · rw [if_neg same, if_neg (by rw [decide_eq_true_eq]; exact same)]

theorem foldl_changesOf (records : StoredRecords V) (key other : String) (change) (changes) :
    (changesOf other changes).foldl RecordChange.apply (update records key (change.apply (records key)) other) =
      (changesOf other ((key, change) :: changes)).foldl RecordChange.apply (records other) := by
  rw [changesOf_cons]
  by_cases same : key = other
  · subst same
    rw [if_pos rfl, foldl_cons, update_self]
  · rw [if_neg same, update_of_ne (Ne.symm same)]

theorem batch_cons_run (write) (rest) (store) :
    ((batch (write :: rest)).run (recordExec engine elapse) store).2 =
      match (batchWrite write).run (recordExec engine elapse) store with
      | (.ok _, after) => ((batch rest).run (recordExec engine elapse) after).2
      | (.error _, after) => after := by
  rw [batch, Program.run_bind]
  cases (batchWrite write).run (recordExec engine elapse) store with
  | mk outcome after =>
    cases outcome with
    | error error => rfl
    | ok result =>
      dsimp only
      rw [Program.run_bind]
      cases (batch rest).run (recordExec engine elapse) after with
      | mk outcome ended => cases outcome <;> rfl

theorem batchWrite_delete_run (key : String) (store) :
    (batchWrite (.delete key)).run (recordExec engine elapse) store =
      match normalizeKey key with
      | .error error => (.error error, store)
      | .ok key => (.ok (.ok key 0), { store with records := update store.records key none, time := elapse store.time }) := by
  rw [batchWrite]
  cases normalizeKey key <;> rfl

theorem batchWrite_put_run (args) (store) :
    (batchWrite (.put args)).run (recordExec engine elapse) store =
      match normalizeKey args.key with
      | .error error => (.error error, store)
      | .ok key =>
        if args.conflicts (store.records.versions key) then
          (.ok (.versionConflict key (store.records.versions key)), { store with time := elapse store.time })
        else
          match normalizeDate args.updatedAt store.time with
          | .error error => (.error error, { store with time := elapse store.time })
          | .ok updatedAt =>
            (.ok (.ok key ((store.records.versions key).getD 0 + 1)),
              { store with
                records := update store.records key ((RecordChange.stored args.value updatedAt).apply (store.records key))
                time := elapse (elapse store.time) }) := by
  rw [batchWrite]
  cases normalizeKey args.key with
  | error error => rfl
  | ok key =>
    show Program.run _ (ite (args.conflicts (store.records.versions key)) _ _) _ = _
    by_cases conflicts : args.conflicts (store.records.versions key)
    · rw [if_pos conflicts]
      exact (if_pos conflicts).symm
    · rw [if_neg conflicts]
      refine Eq.trans ?_ (if_neg conflicts).symm
      show Program.run _ ((Program.ofExcept (encodeRecord args.value (store.records.versions key) args.updatedAt store.time)).bind _) _ = _
      unfold encodeRecord
      cases normalizeDate args.updatedAt store.time <;> rfl

theorem batch_run (writes : List (BatchWrite V)) (store) (key : String) :
    ((batch writes).run (recordExec engine elapse) store).2.records key =
      (changesOf key (takingEffect elapse store.time store.records.versions writes)).foldl RecordChange.apply (store.records key) := by
  induction writes generalizing store with
  | nil => rfl
  | cons write rest ih =>
    rw [batch_cons_run]
    cases write with
    | delete deleted =>
      rw [batchWrite_delete_run, takingEffect]
      cases normalizeKey deleted with
      | error error => rfl
      | ok deleted =>
        dsimp only
        rw [ih, StoredRecords.versions_update]
        exact foldl_changesOf store.records deleted key .deleted _
    | put args =>
      rw [batchWrite_put_run, takingEffect]
      cases normalizeKey args.key with
      | error error => rfl
      | ok written =>
        dsimp only
        by_cases conflicts : args.conflicts (store.records.versions written)
        · rw [if_pos conflicts, if_pos conflicts]
          exact ih _
        · rw [if_neg conflicts, if_neg conflicts]
          cases normalizeDate args.updatedAt store.time with
          | error error => rfl
          | ok updatedAt =>
            dsimp only
            rw [ih, StoredRecords.versions_update]
            exact foldl_changesOf store.records written key (.stored args.value updatedAt) _

theorem batch_run_of_applies
    (applies : applyBatch elapse store.time store.records writes = some final) :
    ((batch writes).run (recordExec engine elapse) store).2.records = final := by
  induction writes generalizing store with
  | nil => exact Option.some.inj applies
  | cons write rest ih =>
    rw [batch_cons_run]
    cases write with
    | delete deleted =>
      rw [applyBatch] at applies
      rw [batchWrite_delete_run]
      cases normalized : normalizeKey deleted with
      | error error =>
        rw [normalized] at applies
        cases applies
      | ok deleted =>
        rw [normalized] at applies
        exact ih applies
    | put args =>
      rw [applyBatch] at applies
      rw [batchWrite_put_run]
      cases normalized : normalizeKey args.key with
      | error error =>
        rw [normalized] at applies
        cases applies
      | ok written =>
        cases dated : normalizeDate args.updatedAt store.time with
        | error error =>
          rw [normalized, dated] at applies
          cases applies
        | ok updatedAt =>
          rw [normalized, dated] at applies
          dsimp only at applies ⊢
          by_cases conflicts : args.conflicts (store.records.versions written)
          · rw [if_pos conflicts] at applies
            cases applies
          · rw [if_neg conflicts] at applies
            rw [if_neg conflicts]
            exact ih applies

theorem foldl_puts {puts : List (RecordChange V)} (onlyPuts : RecordChange.deleted ∉ puts) (record) :
    ((puts.foldl RecordChange.apply record).map StoredRecord.version).getD 0 = (record.map StoredRecord.version).getD 0 + puts.length := by
  induction puts generalizing record with
  | nil => rfl
  | cons put rest ih =>
    cases put with
    | deleted => exact absurd (mem_cons_self) onlyPuts
    | stored value updatedAt =>
      rw [foldl_cons, ih fun member => onlyPuts (mem_cons_of_mem _ member), length_cons]
      show (record.map StoredRecord.version).getD 0 + 1 + rest.length = _
      omega

theorem last_delete (changes : List (RecordChange V)) :
    RecordChange.deleted ∉ changes ∨ ∃ earlier puts, changes = earlier ++ .deleted :: puts ∧ RecordChange.deleted ∉ puts := by
  induction changes with
  | nil => exact .inl not_mem_nil
  | cons change rest ih =>
    obtain onlyPuts | ⟨earlier, puts, is, onlyPuts⟩ := ih
    · cases change with
      | deleted => exact .inr ⟨[], rest, rfl, onlyPuts⟩
      | stored value updatedAt => exact .inl fun member => (mem_cons.mp member).elim nofun onlyPuts
    · exact .inr ⟨change :: earlier, puts, by rw [is, cons_append], onlyPuts⟩

theorem undoOneAnother_iff (record : Option (StoredRecord V)) (changes) :
    UndoOneAnother record changes ↔ changes.foldl RecordChange.apply record = record := by
  constructor
  · intro undo
    obtain rfl | ⟨rfl, earlier, rfl⟩ | ⟨earlier, puts, value, updatedAt, rfl, onlyPuts, rfl⟩ := undo
    · rfl
    · rw [foldl_append]
      rfl
    · rw [foldl_append, foldl_cons, foldl_append]
      have version := foldl_puts onlyPuts (none : Option (StoredRecord V))
      show some _ = _
      rw [show RecordChange.deleted.apply _ = (none : Option (StoredRecord V)) from rfl, version]
      simp
  · intro same
    rcases eq_nil_or_concat changes with rfl | ⟨earlier, change, rfl⟩
    · exact .inl rfl
    · rw [concat_eq_append, foldl_append] at same
      cases change with
      | deleted => exact .inr (.inl ⟨same.symm, earlier, concat_eq_append⟩)
      | stored value updatedAt =>
        have is : record = some ⟨value, ((earlier.foldl RecordChange.apply record).map StoredRecord.version).getD 0 + 1, updatedAt⟩ := same.symm
        obtain onlyPuts | ⟨before, puts, rfl, onlyPuts⟩ := last_delete earlier
        · -- Without a delete the version has grown.
          have version := foldl_puts onlyPuts record
          have own : (record.map StoredRecord.version).getD 0 = ((earlier.foldl RecordChange.apply record).map StoredRecord.version).getD 0 + 1 := by
            conv_lhs => rw [is]
            rfl
          omega
        · refine .inr (.inr ⟨before, puts, value, updatedAt, ?_, onlyPuts, ?_⟩)
          · rw [concat_eq_append, append_assoc, cons_append]
          · have version := foldl_puts onlyPuts (none : Option (StoredRecord V))
            rw [foldl_append, foldl_cons, show RecordChange.deleted.apply _ = (none : Option (StoredRecord V)) from rfl, version] at is
            simpa using is

/-- A batch is all or nothing exactly when none of its entries fails, or those that take effect undo one another. -/
theorem batch_allOrNothing_iff (writes : List (BatchWrite V)) (store : RecordStore V) :
    ((batch writes).run (recordExec engine elapse) store).2.records =
        (applyBatch elapse store.time store.records writes).getD store.records ↔
      applyBatch elapse store.time store.records writes ≠ none ∨
        ∀ key, UndoOneAnother (store.records key) (changesOf key (takingEffect elapse store.time store.records.versions writes)) := by
  cases applies : applyBatch elapse store.time store.records writes with
  | some final => exact iff_of_true (batch_run_of_applies applies) (.inl (Option.some_ne_none final))
  | none =>
    rw [Option.getD_none]
    refine ⟨fun same => .inr fun key => ?_, fun holds => ?_⟩
    · have ran := congrFun same key
      rw [batch_run] at ran
      exact (undoOneAnother_iff _ _).mpr ran
    · obtain absent | undo := holds
      · exact absurd rfl absent
      · funext key
        rw [batch_run, (undoOneAnother_iff _ _).mp (undo key)]

end
/-- A transaction reads what is stored, or what it has written itself, and is committed unless a record it writes has changed. -/
def optimisticTransactions : TransactionEngine Nat where
  reads transaction current key := ((transaction.writes.filter (·.1 = key)).getLast?.map Prod.snd).orElse fun _ => current key
  accepts transaction current := transaction.writes.all fun (key, _) => transaction.snapshot key = current key

def storeOfOne : RecordStore Nat where
  records := update (fun _ => none) "idem!1" (some ⟨7, 1, 0⟩)
  time := 0
  transaction := none

/-- The second entry expects a version that is not stored: the record that the first one deletes is gone. -/
theorem batch_deletes_before_conflict :
    let writes : List (BatchWrite Nat) := [.delete "idem!1", .put { key := "idem!2", value := 8, expectedVersion := some (some 3) }]
    applyBatch (· + 1) storeOfOne.time storeOfOne.records writes = none ∧
      storeOfOne.records "idem!1" = some ⟨7, 1, 0⟩ ∧
      ((batch writes).run (recordExec optimisticTransactions (· + 1)) storeOfOne).2.records "idem!1" = none := by
  have fails : (applyBatch (· + 1) storeOfOne.time storeOfOne.records
      [.delete "idem!1", .put { key := "idem!2", value := 8, expectedVersion := some (some 3) }]).isNone = true := by decide +kernel
  exact ⟨Option.isNone_iff_eq_none.mp fails, by decide +kernel, by decide +kernel⟩

end WalletToolbox

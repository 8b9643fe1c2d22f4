import WalletToolbox.Provider.SyncMerges

/-! Which incoming rows are merged. A merge is stored under the local clock, so the rows
that are merged later have to be newer than that. -/

namespace WalletToolbox
open Effects SyncEntity

section
variable {α β : Type}

theorem StampedRocksDb.updateById_stored {table : UpdatedTable α β} {rows id existing}
    (stored : rows.lookup id = some existing) (now : Int) (update) :
    ((updateById table now rows id update).1.lookup id).map Stamped.updated_at =
      some (if table.id (table.spread update.fields existing.row) = id then now else existing.updated_at) := by
  unfold updateById
  rw [stored]
  dsimp only
  split
  · next same =>
    have here : table.id (table.spreadStamped (validatePartialForUpdate now update) existing).row = id := same
    rw [here, AList.lookup_insert]
    rfl
  · next other =>
    have elsewhere : id ≠ table.id (table.spreadStamped (validatePartialForUpdate now update) existing).row := Ne.symm other
    rw [AList.lookup_insert_ne elsewhere, stored]
    rfl

theorem StampedIdb.updateIdb_stored {rows id existing}
    (stored : rows.lookup id = some existing) {now supplied update} (stamped : update.updated_at = some supplied)
    {after} (updates : updateIdb table now rows id update = .ok after) :
    (after.1.lookup id).map Stamped.updated_at = some supplied := by
  unfold updateIdb at updates
  split at updates
  · cases updates
  · rw [stored] at updates
    dsimp only at updates
    split at updates
    · cases updates
      rw [AList.lookup_insert]
      simp [UpdatedTable.spreadStamped, validatePartialForUpdate, stamped]
    · cases updates

variable {entity : SyncEntity α β}

structure SyncStore.Keyed (entity : SyncEntity α β) (store : SyncStore α) : Prop where
  own : ∀ id stored, store.rows.lookup id = some stored → entity.id stored.row = id
  fresh : ∀ id stored, store.rows.lookup id = some stored → id < store.nextId

theorem findFirst_stored {rows : StampedRows α} {lookups found}
    (finds : findFirst rows lookups = .ok (some found)) : ∃ id, rows.lookup id = some found := by
  induction lookups with
  | nil => cases finds
  | cons wanted rest ih =>
    unfold findFirst at finds
    obtain ⟨one, unique, finds⟩ := bind_eq_ok.mp finds
    cases one with
    | none => exact ih finds
    | some row =>
      cases finds
      unfold verifyOneStamped at unique
      split at unique
      · cases unique
      · next same =>
        cases unique
        have member := List.mem_of_mem_filter (same ▸ List.mem_singleton_self found)
        obtain ⟨entry, inside, rfl⟩ := List.mem_map.mp member
        exact ⟨entry.1, AList.mem_lookup_iff.mpr inside⟩
      · cases unique

theorem SyncStore.Keyed.found {store : SyncStore α} (keyed : store.Keyed entity) {ei found}
    (finds : entity.mergeFind store.rows ei = .ok (some found)) : store.rows.lookup (entity.id found.row) = some found := by
  unfold mergeFind at finds
  obtain ⟨lookups, _, finds⟩ := bind_eq_ok.mp finds
  obtain ⟨id, stored⟩ := findFirst_stored finds
  rw [keyed.own id found stored]
  exact stored

theorem mergeExisting_newer (stored : rows.lookup (entity.id existing.row) = some existing)
    (newer : existing.updated_at < ei.updated_at) (now : Int) :
    ∃ row, row = entity.spread (entity.toApi (entity.merged existing.row ei.row)) existing.row ∧ entity.id row = entity.id existing.row ∧
      entity.mergeExisting now rows existing ei = (rows.insert (entity.id existing.row) ⟨existing.created_at, now, row⟩, true) := by
  refine ⟨_, rfl, entity.keepsId _ _, ?_⟩
  unfold mergeExisting
  rw [if_pos newer]
  dsimp only
  unfold StampedRocksDb.updateById
  rw [stored]
  dsimp only
  have same : entity.id (entity.spreadStamped (StampedRocksDb.validatePartialForUpdate now ⟨some existing.created_at,
      some (max ei.updated_at existing.updated_at), entity.toApi (entity.merged existing.row ei.row)⟩) existing).row = entity.id existing.row :=
    entity.keepsId _ _
  rw [same]
  rfl

theorem merge_newer (keyed : store.Keyed entity)
    (finds : entity.mergeFind store.rows ei = .ok (some existing)) (newer : existing.updated_at < ei.updated_at) (now : Int) :
    ∃ row, row = entity.spread (entity.toApi (entity.merged existing.row ei.row)) existing.row ∧ entity.id row = entity.id existing.row ∧
      entity.merge now ei store = ({ store with rows := store.rows.insert (entity.id existing.row) ⟨existing.created_at, now, row⟩ }, .updated (entity.id existing.row)) := by
  obtain ⟨row, is, own, merged⟩ := mergeExisting_newer (keyed.found finds) newer now
  refine ⟨row, is, own, ?_⟩
  unfold merge
  rw [finds]
  dsimp only
  rw [merged]

theorem merge_older (finds : entity.mergeFind store.rows ei = .ok (some existing))
    (older : ¬ existing.updated_at < ei.updated_at) (now : Int) : entity.merge now ei store = (store, .kept (entity.id existing.row)) := by
  have kept : entity.mergeExisting now store.rows existing ei = (store.rows, false) := if_neg older
  unfold merge
  rw [finds]
  dsimp only
  rw [kept]

theorem merge_updates (keyed : store.Keyed entity)
    (finds : entity.mergeFind store.rows ei = .ok (some existing)) (now : Int) :
    (entity.merge now ei store).2 = .updated (entity.id existing.row) ↔ existing.updated_at < ei.updated_at := by
  by_cases newer : existing.updated_at < ei.updated_at
  · obtain ⟨row, _, _, same⟩ := merge_newer keyed finds newer now
    rw [same]
    exact iff_of_true rfl newer
  · rw [merge_older finds newer]
    exact iff_of_false (by simp) newer

/-- What merging one row does. -/
theorem merge_cases (keyed : store.Keyed entity) (now : Int) (ei) :
    (∃ error, entity.merge now ei store = (store, .failed error)) ∨
    (∃ id, entity.merge now ei store = (store, .kept id)) ∨
    (∃ existing row, entity.mergeFind store.rows ei = .ok (some existing) ∧ existing.updated_at < ei.updated_at ∧
      entity.id row = entity.id existing.row ∧
      entity.merge now ei store =
        ({ store with rows := store.rows.insert (entity.id existing.row) ⟨existing.created_at, now, row⟩ }, .updated (entity.id existing.row))) ∨
    (∃ row, entity.id row = store.nextId ∧
      entity.merge now ei store = (⟨store.rows.insert store.nextId { ei with row }, store.nextId + 1⟩, .inserted store.nextId)) := by
  cases finds : entity.mergeFind store.rows ei with
  | error error =>
    refine .inl ⟨error, ?_⟩
    unfold merge
    rw [finds]
  | ok found =>
    cases found with
    | none =>
      refine .inr (.inr (.inr ⟨entity.incoming ei.row store.nextId, entity.newId _ _, ?_⟩))
      unfold merge
      rw [finds]
    | some existing =>
      by_cases newer : existing.updated_at < ei.updated_at
      · obtain ⟨row, -, own, same⟩ := merge_newer keyed finds newer now
        exact .inr (.inr (.inl ⟨existing, row, rfl, newer, own, same⟩))
      · exact .inr (.inl ⟨_, merge_older finds newer now⟩)

def lastMerged (past : List (Stamped α × MergeResult)) (id : Nat) : Option Int :=
  past.foldl (fun last merged => if merged.2 = .inserted id ∨ merged.2 = .updated id then some merged.1.updated_at else last) none

theorem lastMerged_append (past : List (Stamped α × MergeResult)) (ei) (result) (id : Nat) :
    lastMerged (past ++ [(ei, result)]) id =
      if result = .inserted id ∨ result = .updated id then some ei.updated_at else lastMerged past id := by
  unfold lastMerged
  rw [List.foldl_append]
  rfl

def InTime (entity : SyncEntity α β) (now : Int) (ei : Stamped α) (store : SyncStore α) : Prop :=
  ∀ existing, entity.mergeFind store.rows ei = .ok (some existing) → existing.updated_at < ei.updated_at → now ≤ ei.updated_at

/-- The merges of a run, each under some reading of the clock. -/
inductive SyncRun (entity : SyncEntity α β) (start : SyncStore α) : List (Stamped α × MergeResult) → SyncStore α → Prop
  | start : SyncRun entity start [] start
  | step {past : List (Stamped α × MergeResult)} {store : SyncStore α} (run : SyncRun entity start past store) (now : Int) (ei : Stamped α)
      (inTime : InTime entity now ei store) :
      SyncRun entity start (past ++ [(ei, (entity.merge now ei store).2)]) (entity.merge now ei store).1

structure SourceStamped (entity : SyncEntity α β) (past : List (Stamped α × MergeResult)) (store : SyncStore α) : Prop where
  keyed : store.Keyed entity
  stamped : ∀ id source, lastMerged past id = some source → ∃ stored, store.rows.lookup id = some stored ∧ stored.updated_at ≤ source

theorem SyncStore.Keyed.insert {store : SyncStore α} (keyed : store.Keyed entity) {id next stored} (own : entity.id stored.row = id)
    (below : id < next) (grows : store.nextId ≤ next) : SyncStore.Keyed entity ⟨store.rows.insert id stored, next⟩ := by
  constructor
  · intro other found lookup
    by_cases same : other = id
    · subst same
      rw [AList.lookup_insert] at lookup
      cases lookup
      exact own
    · rw [AList.lookup_insert_ne same] at lookup
      exact keyed.own other found lookup
  · intro other found lookup
    by_cases same : other = id
    · subst same
      exact below
    · rw [AList.lookup_insert_ne same] at lookup
      exact lt_of_lt_of_le (keyed.fresh other found lookup) grows

theorem SourceStamped.step {past : List (Stamped α × MergeResult)} {store} (holds : SourceStamped entity past store) {now ei}
    (inTime : InTime entity now ei store) :
    SourceStamped entity (past ++ [(ei, (entity.merge now ei store).2)]) (entity.merge now ei store).1 := by
  rcases merge_cases holds.keyed now ei with ⟨error, same⟩ | ⟨_, same⟩ | ⟨existing, row, finds, newer, own, same⟩ | ⟨row, own, same⟩
  · rw [same]
    refine ⟨holds.keyed, fun id source last => holds.stamped id source ?_⟩
    rwa [lastMerged_append, if_neg (by simp)] at last
  · rw [same]
    refine ⟨holds.keyed, fun id source last => holds.stamped id source ?_⟩
    rwa [lastMerged_append, if_neg (by simp)] at last
  · rw [same]
    have stored := holds.keyed.found finds
    refine ⟨holds.keyed.insert own (holds.keyed.fresh _ _ stored) (le_refl _), fun id source last => ?_⟩
    rw [lastMerged_append] at last
    by_cases here : entity.id existing.row = id
    · rw [if_pos (.inr (congrArg _ here))] at last
      cases last
      subst here
      exact ⟨_, AList.lookup_insert _, inTime existing finds newer⟩
    · rw [if_neg (by simpa using here)] at last
      obtain ⟨kept, lookup, before⟩ := holds.stamped id source last
      exact ⟨kept, by rw [AList.lookup_insert_ne (Ne.symm here)]; exact lookup, before⟩
  · rw [same]
    refine ⟨holds.keyed.insert own (Nat.lt_succ_self _) (Nat.le_succ _), fun id source last => ?_⟩
    rw [lastMerged_append] at last
    by_cases here : store.nextId = id
    · rw [if_pos (.inl (congrArg _ here))] at last
      cases last
      subst here
      exact ⟨_, AList.lookup_insert _, le_refl _⟩
    · rw [if_neg (by simpa using here)] at last
      obtain ⟨kept, lookup, before⟩ := holds.stamped id source last
      exact ⟨kept, by rw [AList.lookup_insert_ne (Ne.symm here)]; exact lookup, before⟩

theorem SyncRun.sourceStamped {start store past} (run : SyncRun entity start past store)
    (keyed : start.Keyed entity) : SourceStamped entity past store := by
  induction run with
  | start => exact ⟨keyed, fun _ _ last => (by cases last)⟩
  | step _ now ei inTime ih => exact ih.step inTime

theorem merge_again {store : SyncStore α} (keyed : store.Keyed entity) {now ei existing next found}
    (finds : entity.mergeFind store.rows ei = .ok (some existing)) (newer : existing.updated_at < ei.updated_at)
    (again : entity.mergeFind (entity.merge now ei store).1.rows next = .ok (some found)) (same : entity.id found.row = entity.id existing.row) (later : Int) :
    (entity.merge later next (entity.merge now ei store).1).2 = .updated (entity.id existing.row) ↔ now < next.updated_at := by
  obtain ⟨row, -, own, merged⟩ := merge_newer keyed finds newer now
  rw [merged] at again ⊢
  have keyed' : SyncStore.Keyed entity ⟨store.rows.insert (entity.id existing.row) ⟨existing.created_at, now, row⟩, store.nextId⟩ :=
    keyed.insert own (keyed.fresh _ _ (keyed.found finds)) (le_refl _)
  have stored := keyed'.found again
  rw [same, AList.lookup_insert] at stored
  have stamp : found.updated_at = now := by
    rw [← Option.some.inj stored]
  have updates := merge_updates keyed' again later
  rw [same, stamp] at updates
  exact updates

end

/-- An update is stored under the time stamp it brings just when that is what the clock shows,
where StorageIdb keeps it; and of two rows of a run the one that is newer at its source is
merged while no merge is made by a clock ahead of its source: after one that is, only rows
newer than the clock are. -/
theorem source_time_wins {α β : Type} (entity : SyncEntity α β) :
    (∀ (rows : StampedRows α) (id : Nat) (existing : Stamped α) (now supplied : Int) (update : StampedUpdate β), rows.lookup id = some existing →
      update.updated_at = some supplied →
      (((StampedRocksDb.updateById entity.toUpdatedTable now rows id update).1.lookup id).map Stamped.updated_at = some supplied ↔
        if entity.id (entity.spread update.fields existing.row) = id then now = supplied else existing.updated_at = supplied) ∧
      ∀ after, StampedIdb.updateIdb entity.toUpdatedTable now rows id update = .ok after → (after.1.lookup id).map Stamped.updated_at = some supplied) ∧
    (∀ (start store : SyncStore α) (past : List (Stamped α × MergeResult)), start.Keyed entity → SyncRun entity start past store →
      ∀ (next existing : Stamped α) (source : Int), lastMerged past (entity.id existing.row) = some source → source < next.updated_at →
        entity.mergeFind store.rows next = .ok (some existing) → ∀ now, (entity.merge now next store).2 = .updated (entity.id existing.row)) ∧
    ∀ (store : SyncStore α) (now : Int) (ei existing next found : Stamped α), store.Keyed entity →
      entity.mergeFind store.rows ei = .ok (some existing) → existing.updated_at < ei.updated_at →
      entity.mergeFind (entity.merge now ei store).1.rows next = .ok (some found) → entity.id found.row = entity.id existing.row →
      ∀ later, (entity.merge later next (entity.merge now ei store).1).2 = .updated (entity.id existing.row) ↔ now < next.updated_at := by
  refine ⟨fun rows id existing now supplied update stored stamped => ⟨?_, fun after updates => StampedIdb.updateIdb_stored stored stamped updates⟩, ?_, ?_⟩
  · rw [StampedRocksDb.updateById_stored stored]
    split <;> simp
  · intro start store past keyed run next existing source last newer finds now
    have holds := run.sourceStamped keyed
    obtain ⟨stored, lookup, before⟩ := holds.stamped _ source last
    have same := lookup.symm.trans (holds.keyed.found finds)
    cases same
    exact (merge_updates holds.keyed finds now).mpr (lt_of_le_of_lt before newer)
  · intro store now ei existing next found keyed finds newer again same later
    exact merge_again keyed finds newer again same later

def mergedTransaction (description : String) : TableTransaction where
  transactionId := 1
  userId := 1
  provenTxId := none
  status := .completed
  reference := "r"
  isOutgoing := true
  satoshis := 1000
  description := description
  version := none
  lockTime := none
  txid := some "t"
  inputBEEF := none
  rawTx := none

/-- The transactions of user 1, merged from a storage with the same ids. -/
def mergedTransactions : SyncEntity TableTransaction TransactionUpdate := EntityTransaction ⟨some, some, some⟩ 1

/-- A transaction last changed at time 10. -/
def mergedStore : SyncStore TableTransaction := ⟨AList.singleton 1 ⟨0, 10, mergedTransaction "local"⟩, 2⟩

theorem mergedStore_keyed : mergedStore.Keyed mergedTransactions := by
  have only : ∀ id stored, mergedStore.rows.lookup id = some stored → id = 1 ∧ stored = ⟨0, 10, mergedTransaction "local"⟩ := by
    intro id stored lookup
    have member := AList.mem_lookup_iff.mp (Option.mem_def.mpr lookup)
    rw [show mergedStore.rows.entries = [⟨1, ⟨0, 10, mergedTransaction "local"⟩⟩] from rfl, List.mem_singleton] at member
    cases member
    exact ⟨rfl, rfl⟩
  constructor
  · intro id stored lookup
    obtain ⟨rfl, rfl⟩ := only id stored lookup
    rfl
  · intro id stored lookup
    obtain ⟨rfl, _⟩ := only id stored lookup
    decide

/-- At time 50 a version of time 100 is merged, and after it one of time 101. -/
theorem source_time_wins_sample :
    let newer : Stamped TableTransaction := ⟨0, 100, mergedTransaction "first"⟩
    let next : Stamped TableTransaction := ⟨0, 101, mergedTransaction "second"⟩
    (mergedTransactions.merge 60 next (mergedTransactions.merge 50 newer mergedStore).1).2 = .updated 1 := by
  intro newer next
  have inTime : InTime mergedTransactions 50 newer mergedStore := fun _ _ _ => by decide
  refine (source_time_wins mergedTransactions).2.1 mergedStore _ _ mergedStore_keyed (.step .start 50 newer inTime) next
    ⟨0, 50, mergedTransaction "first"⟩ 100 ?_ (by decide) ?_ 60
  · decide
  · decide

/-- The clock is at 1000 when a version of time 100 is merged: one of time 500 no longer is. -/
theorem newer_version_dropped :
    (¬ ∀ (rows : StampedRows TableTransaction) (id : Nat) (existing : Stamped TableTransaction) (now supplied : Int)
      (update : StampedUpdate TransactionUpdate), rows.lookup id = some existing → update.updated_at = some supplied →
      ((StampedRocksDb.updateById mergedTransactions.toUpdatedTable now rows id update).1.lookup id).map Stamped.updated_at = some supplied) ∧
    ¬ ∀ (store : SyncStore TableTransaction) (now later : Int) (ei existing next found : Stamped TableTransaction), store.Keyed mergedTransactions →
      mergedTransactions.mergeFind store.rows ei = .ok (some existing) → existing.updated_at < ei.updated_at → ei.updated_at < next.updated_at →
      mergedTransactions.mergeFind (mergedTransactions.merge now ei store).1.rows next = .ok (some found) →
      (mergedTransactions.merge later next (mergedTransactions.merge now ei store).1).2 = .updated (mergedTransactions.id found.row) := by
  constructor
  · intro keeps
    have stored := keeps mergedStore.rows 1 ⟨0, 10, mergedTransaction "local"⟩ 1000 100 ⟨none, some 100, (mergedTransaction "first").toApi⟩ rfl rfl
    revert stored
    decide
  · intro merges
    have merged := merges mergedStore 1000 1001 ⟨0, 100, mergedTransaction "first"⟩ ⟨0, 10, mergedTransaction "local"⟩
      ⟨0, 500, mergedTransaction "second"⟩ ⟨0, 1000, mergedTransaction "first"⟩ mergedStore_keyed (by decide) (by decide) (by decide) (by decide)
    revert merged
    decide

end WalletToolbox

import WalletToolbox.Proofs.IndexedFinds

/-! The tables as the calls of storage see them: a row under each key, whatever its version
and whatever indexes are kept beside it. A call that runs alone reads rows, puts one under
its own key, or does nothing. -/

namespace WalletToolbox
open Async StorageRocksDb StorageCall

abbrev TableRows := (table : EntityTable) → RowKey → Option (Row table)

namespace TableRows
variable {rows : TableRows} {table other : EntityTable}

def put (table : EntityTable) (row : Row table) (rows : TableRows) : TableRows :=
  Function.update rows table (Function.update (rows table) (rowKey table row) (some row))

def change (table : EntityTable) (key : RowKey) (changes : Row table → Row table) (rows : TableRows) : TableRows :=
  match rows table key with
  | none => rows
  | some row => rows.put table (changes row)

def Owned (rows : TableRows) : Prop := ∀ table key row, rows table key = some row → rowKey table row = key

@[simp] theorem put_same (row : Row table) : rows.put table row table (rowKey table row) = some row := by
  rw [put, Function.update_self, Function.update_self]

theorem put_key {row key} (different : key ≠ rowKey table row) : rows.put table row table key = rows table key := by
  rw [put, Function.update_self, Function.update_of_ne different]

@[simp] theorem put_other (different : other ≠ table) : rows.put table row other = rows other := by
  rw [put, Function.update_of_ne different]

theorem put_cases (here : rows.put table row table key = some found) :
    (key = rowKey table row ∧ found = row) ∨ (key ≠ rowKey table row ∧ rows table key = some found) := by
  by_cases same : key = rowKey table row
  · subst same
    rw [put_same] at here
    exact .inl ⟨rfl, (Option.some.inj here).symm⟩
  · rw [put_key same] at here
    exact .inr ⟨same, here⟩

theorem change_absent (absent : rows table key = none) : rows.change table key changes = rows := by
  rw [change, absent]

theorem change_found (found : rows table key = some row) :
    rows.change table key changes = rows.put table (changes row) := by
  rw [change, found]

@[simp] theorem change_other (different : other ≠ table) :
    rows.change table key changes other = rows other := by
  cases found : rows table key with
  | none => rw [change_absent found]
  | some row => rw [change_found found, put_other different]

theorem Owned.put (owned : Owned rows) (row : Row table) : Owned (rows.put table row) := by
  intro which key found here
  by_cases same : which = table
  · subst same
    rcases put_cases here with ⟨rfl, rfl⟩ | ⟨_, here⟩
    · rfl
    · exact owned which key found here
  · rw [put_other same] at here
    exact owned which key found here

theorem Owned.change (owned : Owned rows) (key : RowKey) (changes : Row table → Row table) : Owned (rows.change table key changes) := by
  unfold TableRows.change
  split
  · exact owned
  · exact owned.put _

theorem Owned.change_same (owned : Owned rows)
    (keeps : ∀ row, rowKey table (changes row) = rowKey table row) (other : RowKey) :
    rows.change table key changes table other = if other = key then (rows table key).map changes else rows table other := by
  cases found : rows table key with
  | none =>
    rw [change_absent found]
    split
    · next same => rw [same, found]; rfl
    · rfl
  | some row =>
    have own := (keeps row).trans (owned table key row found)
    rw [change_found found]
    split
    · next same =>
      subst same
      rw [← own, put_same]
      rfl
    · next different => exact put_key (own ▸ different)

def Kept {α : Type} (table : EntityTable) (view : Row table → α) (before after : TableRows) : Prop :=
  ∀ key row, before table key = some row → ∃ now, after table key = some now ∧ view now = view row

section
variable {α : Type} {view : Row table → α} {middle after : TableRows}

theorem kept_of_same (same : after table = rows table) : Kept table view rows after := by
  intro key row here
  exact ⟨row, by rw [same, here], rfl⟩

theorem Kept.trans (first : Kept table view rows middle) (rest : Kept table view middle after) : Kept table view rows after := by
  intro key row here
  obtain ⟨now, found, same⟩ := first key row here
  obtain ⟨last, there, also⟩ := rest key now found
  exact ⟨last, there, also.trans same⟩

theorem kept_put (new : rows table (rowKey table row) = none) : Kept table view rows (rows.put table row) := by
  intro key old here
  have different : key ≠ rowKey table row := by
    rintro rfl
    rw [new] at here
    cases here
  exact ⟨old, by rw [put_key different, here], rfl⟩

theorem kept_change (owned : Owned rows) (keys : ∀ row, rowKey table (changes row) = rowKey table row)
    (views : ∀ row, view (changes row) = view row) (changed : RowKey) : Kept table view rows (rows.change table changed changes) := by
  intro key row here
  rw [owned.change_same keys]
  split
  · next same =>
    subst same
    exact ⟨changes row, by rw [here]; rfl, views row⟩
  · exact ⟨row, here, rfl⟩

end

end TableRows

def Database.rows (database : Database) : TableRows := fun table key => (database.records.row table key).map Versioned.value

section
variable {hash : ScriptHash} {database : Database} {table : EntityTable}

theorem rows_iff :
    database.rows table key = some row ↔ ∃ stored, database.records.row table key = some stored ∧ stored.value = row := Option.map_eq_some_iff

theorem rows_of_same {before after : Database} (same : SameRows before.records after.records) : after.rows = before.rows := by
  funext table key
  rw [Database.rows, same]
  rfl

theorem rows_withRow (row : Row table) {after : Database} (records : after.records = withRow table row database.records) :
    after.rows = database.rows.put table row := by
  funext other key
  rw [Database.rows, records]
  by_cases tables : other = table
  · subst tables
    by_cases keys : key = rowKey other row
    · subst keys
      rw [withRow_same, TableRows.put_same]
      rfl
    · rw [withRow_other row database.records fun both => keys both.2, TableRows.put_key keys]
      rfl
  · rw [withRow_other row database.records fun both => tables both.1, TableRows.put_other tables]
    rfl

theorem RowsOwned.rows (owned : RowsOwned database.records) : database.rows.Owned := by
  intro table key row here
  obtain ⟨stored, found, rfl⟩ := rows_iff.mp here
  exact owned table key stored found

theorem update_rows (table : EntityTable) (key : UpdateKey table) (changes : Update table) :
    (callAlone hash (.update table key changes) database).2.rows =
      database.rows.change table (key.row table) (updatedRow hash table changes) := by
  rcases @callAlone_update hash database table key changes with ⟨absent, same⟩ | ⟨existing, found, same⟩
  · have none : database.rows table (key.row table) = none := by rw [Database.rows, absent]; rfl
    rw [TableRows.change_absent none, same]
  · have some := rows_iff.mpr ⟨existing, found, rfl⟩
    have put : ({ database with records := withRow table (updatedRow hash table changes existing.value) database.records } : Database).rows =
        database.rows.put table (updatedRow hash table changes existing.value) := rows_withRow _ rfl
    rw [TableRows.change_found some]
    exact (rows_of_same same).trans put

/-- The row an insert puts. -/
def insertedRow (hash : ScriptHash) (database : Database) : (table : EntityTable) → Row table → Row table
  | .outputs, row => (prepared .outputs (applyOutputScriptMetadata hash row) database).1
  | .certificates, row => (prepared .certificates row database).1
  | .commissions, row => (prepared .commissions row database).1
  | .outputBaskets, row => (prepared .outputBaskets row database).1
  | .outputTags, row => (prepared .outputTags row database).1
  | .outputTagsMap, row => (prepared .outputTagsMap row database).1
  | .provenTxReqs, row => (prepared .provenTxReqs row database).1
  | .provenTxs, row => (prepared .provenTxs row database).1
  | .transactions, row => (prepared .transactions row database).1
  | .txLabels, row => (prepared .txLabels row database).1
  | .txLabelsMap, row => (prepared .txLabelsMap row database).1
  | .users, row => (prepared .users row database).1

theorem insertEntity_after (table : EntityTable) (row : Row table) : (insertEntity table row).Ends (exec hash) database fun outcome after =>
    outcome = .ok (prepared table row database).1 ∧ after.rows = database.rows.put table (prepared table row database).1 := by
  unfold Program.Ends
  rw [insertEntity_run]
  refine ⟨rfl, ?_⟩
  have taken := rows_of_same fun other key => prepared_lookup table row database (by simp)
  rw [← taken]
  exact rows_withRow _ rfl

theorem prepared_new {row : Row table} (unnumbered : rowId table row = some 0) :
    prepared table row database = (setRowId table (takeId table database).1 row, (takeId table database).2) := by
  unfold prepared
  split
  · rfl
  · next other => exact (other unnumbered).elim

def fileOutput (hash : ScriptHash) (output : TableOutput) : RocksDbM Nat := do
  RocksDbWalletStore.putOutput hash output (← transactionStatusForOutput output)
  return output.outputId

theorem fileOutput_after (output : TableOutput) : (fileOutput hash output).Ends (exec hash) database fun outcome after =>
    (∀ id, outcome = .ok id → id = output.outputId) ∧ after.rows = database.rows := by
  have uses : (fileOutput hash output).Uses LeavesRows := refile_leavesRows output
  have returns : (fileOutput hash output).Resolves (exec hash) database fun id _ => id = output.outputId :=
    .bind fun status middle _ => .bind fun _ last _ => .done rfl
  exact ⟨fun id ends => returns id _ (Prod.ext ends rfl), rows_of_same (sameRows_of_uses uses database)⟩

theorem insertOutput_after (row : TableOutput) : (insertRow hash .outputs row).Ends (exec hash) database fun outcome after =>
    (∀ reply, outcome = .ok reply → reply = (prepared .outputs (applyOutputScriptMetadata hash row) database).1) ∧
      after.rows = database.rows.put .outputs (prepared .outputs (applyOutputScriptMetadata hash row) database).1 := by
  have inserted : (insertOutput hash row).Ends (exec hash) database fun outcome after =>
      (∀ id, outcome = .ok id → id = (prepared .outputs (applyOutputScriptMetadata hash row) database).1.outputId) ∧
        after.rows = database.rows.put .outputs (prepared .outputs (applyOutputScriptMetadata hash row) database).1 := by
    apply Program.Ends.bind
    refine (insertEntity_after .outputs (applyOutputScriptMetadata hash row)).mono fun outcome after ⟨is, put⟩ => ?_
    rw [is]
    refine (fileOutput_after _).mono fun _ last ⟨returns, same⟩ => ⟨returns, same.trans put⟩
  apply Program.Ends.bind
  refine inserted.mono fun outcome after ends => ?_
  cases outcome with
  | error error =>
    refine ⟨fun reply is => ?_, ends.2⟩
    cases is
  | ok id =>
    obtain ⟨returns, put⟩ := ends
    refine ⟨fun reply is => ?_, put⟩
    have own := (Except.ok.inj is).symm
    rw [own, returns id rfl]
    unfold prepared
    split <;> rfl

theorem insert_rows (row : Row table) :
    (∀ reply, (callAlone hash (.insert table row) database).1 = .ok reply → reply = insertedRow hash database table row) ∧
      (callAlone hash (.insert table row) database).2.rows = database.rows.put table (insertedRow hash database table row) := by
  cases table with
  | outputs => exact insertOutput_after row
  | _ =>
    refine ⟨fun reply is => ?_, (insertEntity_after _ row).2⟩
    exact (Except.ok.inj (((insertEntity_after _ row).1).symm.trans is)).symm

/-- What a find of a table reads by: the id that is asked for, and the rows it accepts. The
finds of outputs and transactions do more. -/
def findFilter : (table : EntityTable) → FindArgs table → Option (Option Nat × (Row table → Bool))
  | .certificates, wanted => some (wanted.certificateId, (matchesCertificatePartial · wanted))
  | .commissions, wanted => some (wanted.commissionId, (matchesCommissionPartial · wanted))
  | .outputBaskets, wanted => some (wanted.basketId, (matchesOutputBasketPartial · wanted))
  | .outputTags, wanted => some (wanted.outputTagId, (matchesOutputTagPartial · wanted))
  | .outputTagsMap, wanted => some (none, (matchesOutputTagMapPartial · wanted))
  | .provenTxReqs, wanted => some (wanted.provenTxReqId, (matchesProvenTxReqPartial · wanted))
  | .provenTxs, wanted => some (wanted.provenTxId, (matchesProvenTxPartial · wanted))
  | .txLabels, wanted => some (wanted.txLabelId, (matchesTxLabelPartial · wanted))
  | .txLabelsMap, wanted => some (none, (matchesTxLabelMapPartial · wanted))
  | .users, wanted => some (wanted.userId, (UserPartial.matches wanted ·))
  | .outputs, _ | .transactions, _ => none

theorem find_plain
    (plain : findFilter table args = some (primaryId, accepts)) :
    callAlone hash (.find table args) database = (findEntities table primaryId accepts).run (exec hash) database := by
  cases table <;> cases plain <;> rfl

structure FoundRows (rows : TableRows) (table : EntityTable) (primaryId : Option Nat) (accepts : Row table → Bool) (found : List (Row table)) : Prop where
  distinct : (found.map (rowKey table)).Nodup
  member : ∀ row, row ∈ found ↔ accepts row = true ∧ ∃ key, rows table key = some row ∧ ∀ id, primaryId = some id → key = .id id

theorem findEntities_found (owned : RowsOwned database.records) (primaryId : Option Nat) (accepts : Row table → Bool) :
    ∃ found, (findEntities table primaryId accepts).run (exec hash) database = (.ok found, database) ∧
      FoundRows database.rows table primaryId accepts found := by
  cases primaryId with
  | some id =>
    refine ⟨((database.rows table (.id id)).filter accepts).toList, rfl, ?_, fun row => ?_⟩
    · cases (database.rows table (.id id)).filter accepts with
      | none => exact List.nodup_nil
      | some row => exact List.nodup_singleton _
    · rw [Option.mem_toList, Option.filter_eq_some_iff]
      constructor
      · rintro ⟨here, accepted⟩
        refine ⟨accepted, .id id, here, fun other same => ?_⟩
        cases same
        rfl
      · rintro ⟨accepted, key, here, only⟩
        rw [only id rfl] at here
        exact ⟨here, accepted⟩
  | none =>
    let scanned := (scanEntities table database.records).map Versioned.value
    refine ⟨(scanned.filter accepts).insertionSort fun first second => keyPrecedes (rowKey table first) (rowKey table second), rfl, ?_, fun row => ?_⟩
    · have keys : (scanned.map (rowKey table)).Nodup := by
        rw [List.map_map]
        exact scanEntities_nodup fun key row stored => owned table key row stored
      have sorted := ((List.perm_insertionSort (fun first second => keyPrecedes (rowKey table first) (rowKey table second) = true)
        (scanned.filter accepts)).map (rowKey table)).nodup_iff
      exact sorted.mpr (keys.sublist (List.filter_sublist.map _))
    · rw [List.mem_insertionSort, List.mem_filter, and_comm, List.mem_map]
      refine and_congr_right fun _ => ?_
      constructor
      · rintro ⟨stored, listed, rfl⟩
        obtain ⟨key, here⟩ := mem_scanEntities.mp listed
        exact ⟨key, rows_iff.mpr ⟨stored, here, rfl⟩, nofun⟩
      · rintro ⟨key, here, _⟩
        obtain ⟨stored, found, rfl⟩ := rows_iff.mp here
        exact ⟨stored, mem_scanEntities.mpr ⟨key, found⟩, rfl⟩

theorem await_alone (call : StorageCall) : call.await.run (callAlone hash) database = callAlone hash call database := by
  rw [await, Program.run_await, Program.run_ofExcept]

theorem await_resolves
    (rest : ∀ reply, (callAlone hash call database).1 = .ok reply → post reply (callAlone hash call database).2) :
    call.await.Resolves (callAlone hash) database post :=
  .await (.ofExcept rest)

theorem await_ends {call : StorageCall} {post}
    (rest : post (callAlone hash call database).1 (callAlone hash call database).2) : call.await.Ends (callAlone hash) database post := by
  unfold Program.Ends
  rw [await, Program.run_await, Program.run_ofExcept]
  exact rest

theorem settle_await_ends {next : Except WalletError call.Result → StorageM α}
    (rest : (next (callAlone hash call database).1).Ends (callAlone hash) (callAlone hash call database).2 post) :
    (call.await.settle >>= next).Ends (callAlone hash) database post := by
  apply Program.Ends.bind
  unfold Program.Ends
  rw [Program.run_settle, await, Program.run_await, Program.run_ofExcept]
  exact rest

theorem find_resolves
    (owned : RowsOwned database.records) (plain : findFilter table args = some (primaryId, accepts))
    (rest : ∀ found, FoundRows database.rows table primaryId accepts found → post found database) :
    (find table args).await.Resolves (callAlone hash) database post := by
  obtain ⟨found, ran, is⟩ := @findEntities_found hash database table owned primaryId accepts
  apply await_resolves
  intro reply replied
  rw [find_plain plain, ran] at replied ⊢
  cases replied
  exact rest found is

theorem verifyOneOrNone_resolves {results : List α} {post}
    (absent : results = [] → post none database) (unique : ∀ result, results = [result] → post (some result) database) :
    (verifyOneOrNone results : StorageM _).Resolves (callAlone hash) database post := by
  match results with
  | [] => exact .done (absent rfl)
  | [result] => exact .done (unique result rfl)
  | _ :: _ :: _ => exact .fail _

theorem verifyOne_resolves (unique : ∀ result, results = [result] → post result database) :
    (verifyOne results : StorageM _).Resolves (callAlone hash) database post := by
  match results with
  | [] => exact .fail _
  | [result] => exact .done (unique result rfl)
  | _ :: _ :: _ => exact .fail _

def FoundOne (rows : TableRows) (table : EntityTable) (primaryId : Option Nat) (accepts : Row table → Bool) : Option (Row table) → Prop
  | none => ∀ key row, rows table key = some row → (∀ id, primaryId = some id → key = .id id) → accepts row = false
  | some row => accepts row = true ∧ ∃ key, rows table key = some row ∧ (∀ id, primaryId = some id → key = .id id) ∧
      ∀ other twin, rows table other = some twin → (∀ id, primaryId = some id → other = .id id) → accepts twin = true → other = key

theorem FoundRows.one (owned : rows.Owned)
    (is : FoundRows rows table primaryId accepts found) :
    (found = [] → FoundOne rows table primaryId accepts none) ∧ ∀ row, found = [row] → FoundOne rows table primaryId accepts (some row) := by
  constructor
  · rintro rfl key row here keyed
    by_contra accepted
    have member := (is.member row).mpr ⟨by simpa using accepted, key, here, keyed⟩
    cases member
  · rintro row rfl
    obtain ⟨accepted, key, here, keyed⟩ := (is.member row).mp (.head _)
    refine ⟨accepted, key, here, keyed, fun other twin there also accepts => ?_⟩
    have same := List.mem_singleton.mp ((is.member twin).mpr ⟨accepts, other, there, also⟩)
    rw [← owned table other twin there, same, owned table key row here]

theorem lookup_ends (owned : RowsOwned database.records)
    (plain : findFilter table args = some (primaryId, accepts)) {next : Option (Row table) → StorageM α}
    {post : Except WalletError α → Database → Prop} (failed : ∀ error, post (.error error) database)
    (rest : ∀ found, FoundOne database.rows table primaryId accepts found → (next found).Ends (callAlone hash) database post) :
    ((find table args).await >>= fun results => verifyOneOrNone results >>= next).Ends (callAlone hash) database post := by
  obtain ⟨results, ran, is⟩ := @findEntities_found hash database table owned primaryId accepts
  apply Program.Ends.bind
  apply await_ends
  rw [find_plain plain, ran]
  dsimp only
  match results, is with
  | [], is => exact rest none ((is.one owned.rows).1 rfl)
  | [row], is => exact rest (some row) ((is.one owned.rows).2 row rfl)
  | _ :: _ :: _, _ => exact failed _

theorem retryOnce_run
    (ran : attempt.run (callAlone hash) database = (.ok value, after)) : (retryOnce attempt).run (callAlone hash) database = (.ok value, after) := by
  rw [retryOnce, Program.run_handle, ran]

theorem retryOnce_resolves {attempt : StorageM α}
    (ends : attempt.Ends (callAlone hash) database fun outcome after => match outcome with
      | .ok value => post value after
      | .error _ => after = database) : (retryOnce attempt).Resolves (callAlone hash) database post := by
  intro value after ran
  unfold Program.Ends at ends
  rw [retryOnce, Program.run_handle] at ran
  cases first : attempt.run (callAlone hash) database with
  | mk outcome middle =>
    rw [first] at ran ends
    cases outcome with
    | ok other =>
      obtain ⟨same, rfl⟩ := Prod.mk.inj ran
      exact Except.ok.inj same ▸ ends
    | error error =>
      have same : middle = database := ends
      subst same
      have again : attempt.run (callAlone hash) middle = (.ok value, after) := ran
      rw [first] at again
      cases again

end
end WalletToolbox

import WalletToolbox.Storage.Database

/-! What writes do to the records, and what a native reservation commits. -/

namespace WalletToolbox
open Effects

def applyWrites (fresh : Bool) (writes : List Write) (records : Records) : Records :=
  writes.foldl (Write.apply fresh) records

variable {fresh : Bool} {records : Records} {writes : List Write} {key : StorageKey}

@[simp] theorem applyWrites_nil : applyWrites fresh [] records = records := rfl
@[simp] theorem applyWrites_cons (first : Write) : 
    applyWrites fresh (first :: writes) records = applyWrites fresh writes (first.apply fresh records) := rfl
theorem applyWrites_append (first second : List Write) :
    applyWrites fresh (first ++ second) records = applyWrites fresh second (applyWrites fresh first records) :=
  List.foldl_append

theorem Write.apply_lookup_ne {write : Write} (other : key ≠ write.key) :
    (write.apply fresh records).lookup key = records.lookup key := by
  cases write with
  | put target value => exact AList.lookup_insert_ne other
  | delete target => exact AList.lookup_erase_ne other

theorem applyWrites_lookup_other (others : ∀ write ∈ writes, key ≠ write.key) :
    (applyWrites fresh writes records).lookup key = records.lookup key := by
  induction writes generalizing records with
  | nil => rfl
  | cons first rest ih =>
    rw [applyWrites_cons, ih fun write member => others write (.tail _ member)]
    exact Write.apply_lookup_ne (others first (.head _))

theorem applyWrites_deletes_isSome (keys : List StorageKey) :
    ((applyWrites fresh (keys.map .delete) records).lookup key).isSome =
      ((records.lookup key).isSome && !decide (key ∈ keys)) := by
  induction keys generalizing records with
  | nil => simp
  | cons first rest ih =>
    rw [List.map_cons, applyWrites_cons, ih]
    by_cases same : key = first
    · subst same
      simp [Write.apply]
    · simp [Write.apply, AList.lookup_erase_ne same, same]

theorem applyWrites_puts_isSome (puts : ∀ write ∈ writes, ∃ key value, write = .put key value) :
    ((applyWrites fresh writes records).lookup key).isSome =
      ((records.lookup key).isSome || decide (key ∈ writes.map Write.key)) := by
  induction writes generalizing records with
  | nil => simp
  | cons first rest ih =>
    obtain ⟨target, value, rfl⟩ := puts first (.head _)
    rw [applyWrites_cons, ih fun write member => puts write (.tail _ member)]
    by_cases same : key = target
    · subst same
      simp [Write.apply, Write.key]
    · simp [Write.apply, Write.key, AList.lookup_insert_ne same, same]

section
variable {α β : Type} (state : Records)

@[simp] theorem NativeTransaction.put_run (key : StorageKey) (record : Record key) :
    (NativeTransaction.put key record).run state = .ok ((), state.insert key record) := rfl

@[simp] theorem NativeTransaction.writeIndexes_run (writes : List Write) :
    (NativeTransaction.writeIndexes writes).run state = .ok ((), applyWrites true writes state) := by
  induction writes generalizing state with
  | nil => rfl
  | cons first rest ih => exact ih _

end

def Reservation.commit (reservation : Reservation) (next : TableOutput) (primary entity : Versioned TableOutput)
    (deletes puts : List Write) (records : Records) : Records :=
  applyWrites true puts
    (((applyWrites true deletes records).insert (StorageKey.outputPrimary reservation.output.value.outputId)
        (encode next (some primary))).insert
      (StorageKey.entity .outputs (.id reservation.output.value.outputId)) (encode next (some entity)))

section
variable (hash : ScriptHash) (database : Database) (target : StorageKey)

theorem exec_put_lookup (record : Record key) :
    (exec hash (.put key record) database).2.records.lookup key = some record := AList.lookup_insert _

theorem exec_put_lookup_ne (record : Record target) (other : key ≠ target) :
    (exec hash (.put target record) database).2.records.lookup key = database.records.lookup key := AList.lookup_insert_ne other

theorem exec_remove_lookup_ne (other : key ≠ target) :
    (exec hash (.remove target) database).2.records.lookup key = database.records.lookup key := AList.lookup_erase_ne other

end

theorem Reservation.work_run (hash : ScriptHash) (reservation : Reservation) (records : Records) :
    (reservation.work hash).run records =
      match records.primary reservation.output.value.outputId, records.row .outputs (.id reservation.output.value.outputId) with
      | some primary, some entity =>
        if reservation.fits primary entity then do
          let deletes ← indexDeletesForOutput primary.value reservation.transactionStatus
          let puts ← indexPutsForOutput (reservation.next hash primary.value) reservation.transactionStatus
          .ok (some (reservation.next hash primary.value),
            reservation.commit (reservation.next hash primary.value) primary entity deletes puts records)
        else .ok (none, records)
      | _, _ => .ok (none, records) := by
  unfold Reservation.work
  simp only [StateT.run_bind, StateT.run_get, pure_bind]
  cases records.primary reservation.output.value.outputId with
  | none => rfl
  | some primary =>
    cases records.row .outputs (.id reservation.output.value.outputId) with
    | none => rfl
    | some entity =>
      dsimp only
      split
      · cases indexDeletesForOutput primary.value reservation.transactionStatus with
        | error error => simp
        | ok deletes =>
          cases indexPutsForOutput (reservation.next hash primary.value) reservation.transactionStatus with
          | error error => simp
          | ok puts => simp [Reservation.commit]
      · rfl

theorem reserve_cases (hash : ScriptHash) (reservation : Reservation) (database : Database) :
    (∃ primary entity deletes puts,
      database.records.primary reservation.output.value.outputId = some primary ∧
      database.records.row .outputs (.id reservation.output.value.outputId) = some entity ∧
      reservation.fits primary entity ∧
      indexDeletesForOutput primary.value reservation.transactionStatus = .ok deletes ∧
      indexPutsForOutput (reservation.next hash primary.value) reservation.transactionStatus = .ok puts ∧
      exec hash (.reserve reservation) database = (.ok (some (reservation.next hash primary.value)),
        { database with records := reservation.commit (reservation.next hash primary.value) primary entity deletes puts database.records })) ∨
    ∃ reply, (∀ output, reply ≠ .ok (some output)) ∧ exec hash (.reserve reservation) database = (reply, database) := by
  simp only [exec, runNativeTransaction, Reservation.work_run]
  cases database.records.primary reservation.output.value.outputId with
  | none => exact .inr ⟨.ok none, by simp, rfl⟩
  | some primary =>
    cases database.records.row .outputs (.id reservation.output.value.outputId) with
    | none => exact .inr ⟨.ok none, by simp, rfl⟩
    | some entity =>
      by_cases fits : reservation.fits primary entity
      · cases deleted : indexDeletesForOutput primary.value reservation.transactionStatus with
        | error error => exact .inr ⟨.error error, by simp, by simp [fits, deleted]⟩
        | ok deletes =>
          cases filled : indexPutsForOutput (reservation.next hash primary.value) reservation.transactionStatus with
          | error error => exact .inr ⟨.error error, by simp, by simp [fits, deleted, filled]⟩
          | ok puts => exact .inl ⟨primary, entity, deletes, puts, rfl, rfl, fits, deleted, filled, by simp [fits, deleted, filled]⟩
      · exact .inr ⟨.ok none, by simp, by simp [fits]⟩

section
variable {output : TableOutput} {status : Option TransactionStatus}

theorem indexPutsForOutput_ok : indexPutsForOutput output status = .ok writes ↔
    ∃ keys, outputIndexKeys output status = .ok keys ∧ writes = keys.map (putIndex output) := by
  refine bind_eq_ok.trans (exists_congr fun keys => and_congr_right fun _ => ?_)
  exact ⟨fun built => (Except.ok.inj built).symm, fun built => built ▸ rfl⟩

theorem indexDeletesForOutput_ok : indexDeletesForOutput output status = .ok writes ↔
    ∃ keys, outputIndexKeys output status = .ok keys ∧ writes = keys.map deleteIndex := by
  refine bind_eq_ok.trans (exists_congr fun keys => and_congr_right fun _ => ?_)
  exact ⟨fun built => (Except.ok.inj built).symm, fun built => built ▸ rfl⟩

theorem indexPuts_key (built : indexPutsForOutput output status = .ok writes) (member : write ∈ writes) :
    ∃ key, write.key = .index key := by
  obtain ⟨keys, -, rfl⟩ := indexPutsForOutput_ok.mp built
  obtain ⟨key, -, rfl⟩ := List.mem_map.mp member
  exact ⟨key, rfl⟩

theorem indexDeletes_key (built : indexDeletesForOutput output status = .ok writes) (member : write ∈ writes) :
    ∃ key, write.key = .index key := by
  obtain ⟨keys, -, rfl⟩ := indexDeletesForOutput_ok.mp built
  obtain ⟨key, -, rfl⟩ := List.mem_map.mp member
  exact ⟨key, rfl⟩

end

section
variable {reservation : Reservation} {next : TableOutput} {primary entity : Versioned TableOutput}
  {deletes puts : List Write} {output : TableOutput} {status : Option TransactionStatus}

theorem applyWrites_lookup_noIndex (indexes : ∀ write ∈ writes, ∃ key, write.key = .index key)
    (other : ∀ indexKey, key ≠ .index indexKey) : (applyWrites fresh writes records).lookup key = records.lookup key :=
  applyWrites_lookup_other fun write member => by
    obtain ⟨indexKey, same⟩ := indexes write member
    exact same ▸ other indexKey

theorem Reservation.commit_primary (putsIndex : ∀ write ∈ puts, ∃ key, write.key = .index key) :
    (reservation.commit next primary entity deletes puts records).primary reservation.output.value.outputId =
      some (encode next (some primary)) := by
  rw [Reservation.commit, Records.primary, applyWrites_lookup_noIndex putsIndex (by simp),
    AList.lookup_insert_ne (by simp), AList.lookup_insert]

theorem Reservation.commit_row (putsIndex : ∀ write ∈ puts, ∃ key, write.key = .index key) :
    (reservation.commit next primary entity deletes puts records).row .outputs (.id reservation.output.value.outputId) =
      some (encode next (some entity)) := by
  rw [Reservation.commit, Records.row, applyWrites_lookup_noIndex putsIndex (by simp), AList.lookup_insert]

theorem Reservation.commit_other (deletesIndex : ∀ write ∈ deletes, ∃ key, write.key = .index key)
    (putsIndex : ∀ write ∈ puts, ∃ key, write.key = .index key) (notIndex : ∀ indexKey, key ≠ .index indexKey)
    (notPrimary : key ≠ .outputPrimary reservation.output.value.outputId)
    (notRow : key ≠ .entity .outputs (.id reservation.output.value.outputId)) :
    (reservation.commit next primary entity deletes puts records).lookup key = records.lookup key := by
  rw [Reservation.commit, applyWrites_lookup_noIndex putsIndex notIndex, AList.lookup_insert_ne notRow,
    AList.lookup_insert_ne notPrimary, applyWrites_lookup_noIndex deletesIndex notIndex]

end

end WalletToolbox

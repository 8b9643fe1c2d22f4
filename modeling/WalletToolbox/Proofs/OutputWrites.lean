import WalletToolbox.Async.Pool
import WalletToolbox.Proofs.Records
import WalletToolbox.Proofs.Reads

/-! What `putOutput` writes: index entries, and one primary record. An `updateOutput`
is a write of the row, and a `putOutput` of the row it reads back. -/

namespace WalletToolbox
open Effects Async

inductive OutputWriteOp (next : TableOutput) : DbOp → Prop
  | read {op : DbOp} (reads : Reads op) : OutputWriteOp next op
  | unindex (key : IndexKey) : OutputWriteOp next (.remove (.index key))
  | index (key : IndexKey) (record : Versioned OutputIndexRecord) : OutputWriteOp next (.put (.index key) record)
  | primary (version : Nat) : OutputWriteOp next (.put (.outputPrimary next.outputId) ⟨next, version⟩)

inductive IndexOp : DbOp → Prop
  | read {op : DbOp} (reads : Reads op) : IndexOp op
  | unindex (key : IndexKey) : IndexOp (.remove (.index key))
  | index (key : IndexKey) (record : Versioned OutputIndexRecord) : IndexOp (.put (.index key) record)

theorem IndexOp.outputWrite (index : IndexOp op) : OutputWriteOp next op := by
  cases index with
  | read reads => exact .read reads
  | unindex key => exact .unindex key
  | index key record => exact .index key record

theorem IndexOp.exec_lookup {hash op} (allowed : IndexOp op) (database)
    (notIndex : ∀ indexKey, key ≠ .index indexKey) :
    (exec hash op database).2.records.lookup key = database.records.lookup key := by
  cases allowed with
  | read reads => rw [reads.exec_eq]
  | unindex indexKey => exact exec_remove_lookup_ne hash database _ (notIndex indexKey)
  | index indexKey record => exact exec_put_lookup_ne hash database (.index indexKey) record (notIndex indexKey)

namespace RocksDbWalletStore

theorem batch_append (first second) : batch (first ++ second) = (batch first >>= fun _ => batch second) := by
  induction first with
  | nil => rfl
  | cons write rest ih => simp only [List.cons_append, batch, ih, bind_assoc]

theorem write_uses (reads : ∀ op, Reads op → allowed op) (entry)
    (writes : match entry with
      | .put key value => ∀ version, allowed (.put key ⟨value, version⟩)
      | .delete key => allowed (.remove key)) : (write entry).Uses allowed := by
  cases entry with
  | put key value => exact ⟨reads _ trivial, fun current => ⟨writes _, fun _ => trivial⟩⟩
  | delete key => exact ⟨writes, fun _ => trivial⟩

theorem indexBatch_uses (indexes : ∀ entry ∈ writes, ∃ key, entry.key = .index key) :
    (batch writes).Uses IndexOp := by
  induction writes with
  | nil => trivial
  | cons entry rest ih =>
    refine (write_uses (fun _ => .read) entry ?_).bind fun _ => ih fun other member => indexes other (.tail _ member)
    obtain ⟨key, same⟩ := indexes entry (.head _)
    cases entry with
    | put target value => cases same; exact fun version => .index key ⟨value, version⟩
    | delete target => cases same; exact .unindex key

theorem putOutputWrites_ok {hash output status existing writes}
    (built : putOutputWrites hash output status existing = .ok writes) :
    ∃ deletes puts, existingDeletes status existing = .ok deletes ∧
      indexPutsForOutput (applyOutputScriptMetadata hash output) status = .ok puts ∧
      writes = deletes ++ .put (.outputPrimary (applyOutputScriptMetadata hash output).outputId)
        (applyOutputScriptMetadata hash output) :: puts := by
  obtain ⟨deletes, deleted, built⟩ := bind_eq_ok.mp built
  obtain ⟨puts, filled, built⟩ := bind_eq_ok.mp built
  exact ⟨deletes, puts, deleted, filled, (Except.ok.inj built).symm⟩

theorem existingDeletes_ok
    (deleted : existingDeletes status existing = .ok deletes) : ∃ keys : List IndexKey, deletes = keys.map deleteIndex := by
  cases existing with
  | none => cases deleted; exact ⟨[], rfl⟩
  | some existing =>
    obtain ⟨keys, -, same⟩ := indexDeletesForOutput_ok.mp deleted
    exact ⟨keys, same⟩

inductive Quiet : DbOp → Prop
  | read {op : DbOp} (reads : Reads op) : Quiet op
  | unindex (key : IndexKey) : Quiet (.remove (.index key))

theorem Quiet.index (quiet : Quiet op) : IndexOp op := by
  cases quiet with
  | read reads => exact .read reads
  | unindex key => exact .unindex key

theorem existingDeletes_uses
    (deleted : existingDeletes status existing = .ok deletes) : (batch deletes).Uses Quiet := by
  obtain ⟨keys, rfl⟩ := existingDeletes_ok deleted
  clear deleted
  induction keys with
  | nil => trivial
  | cons key rest ih => exact ⟨.unindex key, fun _ => ih⟩

theorem putOutput_uses (hash : ScriptHash) (output) (status) :
    (putOutput hash output status).Uses (OutputWriteOp (applyOutputScriptMetadata hash output)) := by
  unfold putOutput
  split
  · trivial
  refine ((getPrimary_uses _).mono fun _ => .read).bind fun existing => ?_
  cases built : putOutputWrites hash output status existing with
  | error error => trivial
  | ok writes =>
    obtain ⟨deletes, puts, deleted, filled, rfl⟩ := putOutputWrites_ok built
    show (batch _).Uses _
    rw [batch_append]
    refine ((existingDeletes_uses deleted).mono fun _ quiet => quiet.index.outputWrite).bind fun _ => ?_
    exact (write_uses (fun _ => .read) _ fun version => .primary version).bind fun _ =>
      (indexBatch_uses fun _ => indexPuts_key filled).mono fun _ => IndexOp.outputWrite

end RocksDbWalletStore

namespace StorageRocksDb
variable (hash : ScriptHash) (id : Nat)

def storeRow (updated : Nat) : Option TableOutput → RocksDbM Nat
  | none => return updated
  | some row => do
    let output ← validateOutputScript row
    let status ← transactionStatusForOutput output
    RocksDbWalletStore.putOutput hash output status
    return updated

def reindexUpdated (updated : Nat) : RocksDbM Nat :=
  .await (.get (.entity .outputs (.id id))) fun record =>
    storeRow hash updated ((record.map Versioned.value).filter (matchesOutputPartial · { outputId := some id }))

/-- The first half, with the row it found. -/
def storeUpdated (changes : OutputUpdate) : Option TableOutput → RocksDbM Nat
  | none => reindexUpdated hash id 0
  | some existing => do
    putEntity .outputs ((changes.applyScriptMetadata hash).spread existing)
    reindexUpdated hash id 1

theorem updateOutput_eq (changes) :
    updateOutput hash id changes =
      .await (.get (.entity .outputs (.id id))) fun record => storeUpdated hash id changes (record.map Versioned.value) := by
  have halves : updateOutput hash id changes =
      (updateById .outputs id (changes.applyScriptMetadata hash).spread >>= fun updated => reindexUpdated hash id updated) := by
    refine congrArg (updateById .outputs id (changes.applyScriptMetadata hash).spread >>= ·) (funext fun updated => ?_)
    refine Program.await_congr fun record => ?_
    have single (row : Option TableOutput) {rest : Option TableOutput → RocksDbM Nat} :
        (row.toList.mapM validateOutputScript >>= fun rows => verifyOneOrNone rows >>= rest) =
          match row with
          | none => rest none
          | some row => validateOutputScript row >>= fun output => rest (some output) := by
      cases row <;> simp [List.mapM_cons, verifyOneOrNone]
    refine (single _).trans ?_
    cases (record.map Versioned.value).filter (matchesOutputPartial · { outputId := some id }) <;> rfl
  rw [halves]
  exact Program.await_congr fun record => by cases record <;> rfl

end StorageRocksDb

end WalletToolbox

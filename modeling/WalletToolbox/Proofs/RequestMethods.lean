import WalletToolbox.Proofs.RequestCalls
import WalletToolbox.Proofs.StatusCalls

/-! Each method on the requests, assembled from its reads and writes. -/

namespace WalletToolbox
open Async EntityProvenTxReq StorageProvider StorageReaderWriter StorageRocksDb StorageCall

section
variable {hash : ScriptHash} {origin : Origin} {past : List (Event rocksDb)} {database : Database} {α β : Type}

abbrev anyEnd (_ : List (Event rocksDb)) (_ : Except WalletError α) (_ : Database) : Prop := True

theorem beside_seq
    (byId : origin.byTxid = false) (uses : method.Uses BesideCall) (keyed : RequestsKeyed database.records)
    (rest : ∀ value more after, Leaves origin past more database after →
      (perform hash (next value)).Guarded (exec hash) (requestContract origin) post more after)
    (failed : ∀ error more after, Leaves origin past more database after → post more (.error error) after) :
    (perform hash (method >>= next)).Guarded (exec hash) (requestContract origin) post past database := by
  rw [perform_bind]
  refine Program.Guarded.bind ((beside_guarded byId (perform_beside hash uses) keyed).mono fun more outcome after leaves => ?_)
  cases outcome with
  | ok value => exact rest value more after leaves
  | error error => exact failed error more after leaves

theorem updateDynamics_guarded (reflects : Reflects origin past req) (keyed : RequestsKeyed database.records) :
    (perform hash (updateStorageDynamicProperties req)).Guarded (exec hash) (requestContract origin)
      (fun more _ after => Updated origin req past more database after) past database := by
  have performs : perform hash (updateStorageDynamicProperties req) =
      updateById .provenTxReqs req.provenTxReqId (dynamics req).spread := perform_await hash _
  rw [performs]
  exact updateRequest_guarded reflects (fun _ => ⟨rfl, rfl⟩) (fun _ named => named) (fun _ _ => rfl) keyed

theorem update_seq
    (reflects : Reflects origin past req) (keyed : RequestsKeyed database.records)
    (rest : ∀ count more after, Updated origin req past more database after →
      (perform hash (next count)).Guarded (exec hash) (requestContract origin) post more after)
    (failed : ∀ error more after, Updated origin req past more database after → post more (.error error) after) :
    (perform hash (updateStorageDynamicProperties req >>= next)).Guarded (exec hash) (requestContract origin) post past database := by
  rw [perform_bind]
  refine Program.Guarded.bind ((updateDynamics_guarded reflects keyed).mono fun more outcome after updated => ?_)
  cases outcome with
  | ok count => exact rest count more after updated
  | error error => exact failed error more after updated

def StoredWith (req : TableProvenTxReq) (records : Records) : Prop :=
  ∃ key row, records.row .provenTxReqs key = some row ∧ row.value.txid = req.txid ∧ ListsWithin req row.value

theorem updateWhole_guarded (reflects : Reflects origin past req) (keyed : RequestsKeyed database.records)
    (stored : ∃ row, database.records.row .provenTxReqs (rowKey .provenTxReqs req) = some row ∧ row.value.txid = req.txid) :
    (perform hash (update .provenTxReqs req.provenTxReqId (wholeRow req)).await).Guarded (exec hash)
      (requestContract origin) (fun _ _ after => StoredWith req after.records) past database := by
  obtain ⟨row, here, same⟩ := stored
  have performs : perform hash (update .provenTxReqs req.provenTxReqId (wholeRow req)).await =
      updateById .provenTxReqs req.provenTxReqId (wholeRow req).spread := perform_await hash _
  have updates : (updateById .provenTxReqs req.provenTxReqId (wholeRow req).spread).Guarded (exec hash)
      (requestContract origin) (fun more _ after => Updated origin req past more database after) past database := updateRequest_guarded reflects
    (fun _ => ⟨rfl, rfl⟩) (fun _ _ => rfl) (fun old agrees => same.symm.trans (agrees row here).symm) keyed
  rw [performs]
  refine updates.mono fun more outcome after updated => ?_
  obtain ⟨later, now, within⟩ := updated.written row here
  obtain ⟨kept, also, still, -⟩ := updated.grow _ row here
  obtain rfl : later = kept := Option.some.inj (now.symm.trans also)
  exact ⟨_, later, now, still.trans same, within⟩

theorem updateStorage_guarded (fresh : Fresh past) (reflects : Reflects origin past req)
    (keyed : RequestsKeyed database.records)
    (stored : ∃ row, database.records.row .provenTxReqs (rowKey .provenTxReqs req) = some row ∧ row.value.txid = req.txid) :
    (perform hash (updateStorage req)).Guarded (exec hash) (requestContract origin)
      (fun _ outcome after => ∀ value, outcome = .ok value → StoredWith req after.records) past database := by
  have writes : ∀ {req changed : TableProvenTxReq} {more : List (Event rocksDb)} {after : Database}, ListsWithin req changed → changed.txid = req.txid →
      Reflects origin more changed → RequestsKeyed after.records →
      (∃ row, after.records.row .provenTxReqs (rowKey .provenTxReqs changed) = some row ∧ row.value.txid = changed.txid) →
      (perform hash ((update .provenTxReqs changed.provenTxReqId (wholeRow changed)).await >>= fun _ =>
        return changed)).Guarded (exec hash) (requestContract origin)
        (fun _ outcome after => ∀ value, outcome = .ok value → StoredWith req after.records) more after := by
    intro req changed more after within txid reflects keyed stored
    rw [perform_bind]
    refine Program.Guarded.bind ((updateWhole_guarded reflects keyed stored).mono fun last outcome final with' => ?_)
    obtain ⟨key, row, here, same, lists⟩ := with'
    cases outcome with
    | ok _ => exact fun _ _ => ⟨key, row, here, same.trans txid, within.trans lists⟩
    | error _ => exact fun _ failed => by cases failed
  unfold updateStorage
  by_cases none : req.provenTxReqId = 0
  · rw [if_pos none, perform_bind, perform_await]
    refine Program.Guarded.bind ((insertRequest_guarded fresh keyed).mono fun more outcome after ends => ?_)
    obtain ⟨inserted, rfl, result⟩ := ends
    obtain ⟨id, rfl⟩ := result.same
    obtain ⟨row, here, value⟩ := result.stored
    exact writes (.of_eq rfl rfl) rfl result.reflects result.keyed ⟨row, here, congrArg TableProvenTxReq.txid value⟩
  · rw [if_neg none]
    exact writes (.refl req) rfl reflects keyed stored

def MergedIn (now : Clock) (newReq : TableProvenTxReq) (records : Records) : Prop :=
  ∃ key row, records.row .provenTxReqs key = some row ∧ row.value.txid = newReq.txid ∧
    (∀ id ∈ newReq.notify, id ≠ 0 → id ∈ row.value.notify) ∧ ∀ note ∈ newReq.history, Recorded now note row.value.history

theorem MergedIn.grow (merged : MergedIn now newReq before)
    (grow : RequestsGrow before after) : MergedIn now newReq after := by
  obtain ⟨key, row, here, same, ids, notes⟩ := merged
  obtain ⟨later, kept, still, within⟩ := grow key row here
  exact ⟨key, later, kept, still.trans same, fun id member nonzero => within.notify (ids id member nonzero),
    fun note member => (notes note member).within within.history⟩

theorem Inserted.mergedIn
    (result : Inserted origin req inserted more before after) : MergedIn now req after.records := by
  obtain ⟨id, rfl⟩ := result.same
  obtain ⟨row, here, value⟩ := result.stored
  have txid : row.value.txid = req.txid := by rw [value]
  refine ⟨_, row, here, txid, fun id member _ => ?_, fun note member => ⟨note, ?_, .inl rfl⟩⟩
  · rw [value]
    exact member
  · rw [value]
    exact member

structure Merges (now : Clock) (newReq stored merged : TableProvenTxReq) : Prop where
  id : merged.provenTxReqId = stored.provenTxReqId
  txid : merged.txid = stored.txid
  within : ListsWithin stored merged
  ids : ∀ id ∈ newReq.notify, id ≠ 0 → id ∈ merged.notify
  notes : ∀ note ∈ newReq.history, Recorded now note merged.history

theorem merges_notify_first (now : Clock) (newReq stored : TableProvenTxReq) :
    Merges now newReq stored (mergeHistory now newReq (mergeNotifyTransactionIds newReq (ofApi stored))) := by
  obtain ⟨ids, added⟩ := mergeNotifyTransactionIds_spec newReq (ofApi stored)
  obtain ⟨notes, recorded⟩ := mergeHistory_spec now newReq (mergeNotifyTransactionIds newReq (ofApi stored))
  refine ⟨by simp, by simp, (ofApi_within stored).trans (ids.trans notes), fun id member nonzero => ?_, recorded⟩
  exact notes.notify (added id member nonzero)

theorem merges_history_first (now : Clock) (newReq stored : TableProvenTxReq) :
    Merges now newReq stored (mergeNotifyTransactionIds newReq (mergeHistory now newReq (ofApi stored))) := by
  obtain ⟨notes, recorded⟩ := mergeHistory_spec now newReq (ofApi stored)
  obtain ⟨ids, added⟩ := mergeNotifyTransactionIds_spec newReq (mergeHistory now newReq (ofApi stored))
  refine ⟨by simp, by simp, (ofApi_within stored).trans (notes.trans ids), added, fun note member => ?_⟩
  exact (recorded note member).within ids.history

theorem Merges.mergedIn {stored} (merges : Merges now newReq stored merged)
    (named : stored.txid = newReq.txid) (with' : StoredWith merged records) : MergedIn now newReq records := by
  obtain ⟨key, row, here, same, within⟩ := with'
  refine ⟨key, row, here, same.trans (merges.txid.trans named), fun id member nonzero => ?_, fun note member => ?_⟩
  · exact within.notify (merges.ids id member nonzero)
  · exact (merges.notes note member).within within.history

theorem Merges.reflects {stored} (merges : Merges now newReq stored merged)
    (seen : lastSeen origin more (rowKey .provenTxReqs stored) = some stored) : Reflects origin more merged := by
  intro last is
  have same : rowKey .provenTxReqs merged = rowKey .provenTxReqs stored := congrArg RowKey.id merges.id
  rw [same, seen] at is
  cases is
  exact merges.within

theorem Merges.stored {newReq stored merged : TableProvenTxReq} {records : Records} (merges : Merges now newReq stored merged)
    (here : ∃ record, records.row .provenTxReqs (rowKey .provenTxReqs stored) = some record ∧ record.value = stored) :
    ∃ row, records.row .provenTxReqs (rowKey .provenTxReqs merged) = some row ∧ row.value.txid = merged.txid := by
  obtain ⟨record, at', value⟩ := here
  have same : rowKey .provenTxReqs merged = rowKey .provenTxReqs stored := congrArg RowKey.id merges.id
  refine ⟨record, ?_, ?_⟩
  · rw [same]
    exact at'
  · rw [value]
    exact merges.txid.symm

theorem findOneByTxid_guarded (byTxid : origin.byTxid = true) (txid : String) {next : Option TableProvenTxReq → StorageM α}
    (absent : ∀ more after, Fresh more → RequestsKeyed after.records →
      (perform hash (next none)).Guarded (exec hash) (requestContract origin) post more after)
    (present : ∀ row more after, FoundByTxid origin txid more [row] after →
      (perform hash (next (some row))).Guarded (exec hash) (requestContract origin) post more after)
    (failed : ∀ error more after, post more (.error error) after) :
    (perform hash (do
      let found ← verifyOneOrNone (← (find .provenTxReqs { txid := some txid }).await)
      next found)).Guarded (exec hash) (requestContract origin) post past database := by
  rw [perform_bind, perform_await]
  refine Program.Guarded.bind ((findByTxid_guarded byTxid txid).mono fun more outcome after searched => ?_)
  obtain ⟨-, rows, rfl, found⟩ := searched
  match rows with
  | [] => exact absent more after found.fresh found.keyed
  | [row] => exact present row more after found
  | _ :: _ :: _ => exact failed _ more after

theorem beside_any {program : RocksDbM α} (uses : program.Uses Beside) :
    program.Guarded (exec hash) (requestContract origin) anyEnd past database := by
  induction program generalizing past database with
  | done _ | fail _ => trivial
  | await op next ih => exact fun current _ _ => ⟨beside_does uses.1, ih _ (uses.2 _)⟩

def EndsMerged (now : Clock) (newReq : TableProvenTxReq) (_ : List (Event rocksDb)) (outcome : Except WalletError α) (after : Database) : Prop :=
  ∀ value, outcome = .ok value → MergedIn now newReq after.records

structure FoundOrInserted (origin : Origin) (newReq : TableProvenTxReq) (more : List (Event rocksDb)) (result : TableProvenTxReq × Bool)
    (after : Database) : Prop where
  isNew : result.2 = true → ∀ now, MergedIn now newReq after.records
  found : result.2 = false → FoundByTxid origin newReq.txid more [result.1] after

theorem findOrInsertProvenTxReq_guarded (byTxid : origin.byTxid = true) (newReq : TableProvenTxReq) :
    (perform hash (findOrInsertProvenTxReq newReq)).Guarded (exec hash) (requestContract origin)
      (fun more outcome after => ∀ result, outcome = .ok result → FoundOrInserted origin newReq more result after) past database := by
  apply retryOnce_guarded
  intro earlier current
  refine findOneByTxid_guarded byTxid newReq.txid (fun more after fresh keyed => ?_) (fun row more after found => ?_) ?_
  · rw [perform_bind, perform_await]
    refine Program.Guarded.bind ((insertRequest_guarded fresh keyed).mono fun last outcome final ends => ?_)
    obtain ⟨inserted, rfl, result⟩ := ends
    intro value same
    cases same
    exact ⟨fun _ now => result.mergedIn, fun other => by cases other⟩
  · intro value same
    cases same
    exact ⟨fun other => (by cases other), fun _ => found⟩
  · intro error more after value failed
    cases failed

theorem insertOrMerge_guarded (byTxid : origin.byTxid = true) (now : Clock) (newReq : TableProvenTxReq) :
    (perform hash (insertOrMerge now newReq)).Guarded (exec hash) (requestContract origin)
      (EndsMerged now newReq) past database := by
  unfold insertOrMerge transaction insertOrMergeScope
  rw [perform_bind]
  refine Program.Guarded.bind ((findOrInsertProvenTxReq_guarded byTxid newReq).mono fun more outcome after ends => ?_)
  match outcome with
  | .error error => exact fun value failed => by cases failed
  | .ok (row, true) => exact fun _ _ => (ends _ rfl).isNew rfl now
  | .ok (row, false) =>
    have found := (ends _ rfl).found rfl
    have here := List.mem_singleton_self row
    have merges := merges_notify_first now newReq row
    refine (updateStorage_guarded found.fresh (merges.reflects (found.seen row here)) found.keyed
      (merges.stored (found.stored row here))).mono fun last outcome final with' => ?_
    exact fun value same => merges.mergedIn (found.named row here) (with' value same)

theorem upsertProvenTxReq_guarded (byTxid : origin.byTxid = true) (now : Clock) (newReq : TableProvenTxReq) :
    (perform hash (upsertProvenTxReq now newReq.txid (some newReq))).Guarded (exec hash) (requestContract origin)
      (EndsMerged now newReq) past database := by
  refine findOneByTxid_guarded byTxid newReq.txid (fun more after fresh keyed => ?_) (fun row more after found => ?_) ?_
  · show (perform hash ((insert .provenTxReqs newReq).await >>= fun inserted => return some inserted)).Guarded _ _ _ _ _
    rw [perform_bind, perform_await]
    refine Program.Guarded.bind ((insertRequest_guarded fresh keyed).mono fun last outcome final ends => ?_)
    obtain ⟨inserted, rfl, result⟩ := ends
    exact fun _ _ => result.mergedIn
  · have here := List.mem_singleton_self row
    have merges := merges_history_first now newReq row
    have same : rowKey .provenTxReqs (mergeNotifyTransactionIds newReq (mergeHistory now newReq (ofApi row))) = rowKey .provenTxReqs row :=
      congrArg RowKey.id merges.id
    refine update_seq (merges.reflects (found.seen row here)) found.keyed (fun count last final updated => ?_) fun error last final _ value failed => by cases failed
    intro value _
    obtain ⟨record, stored, is⟩ := found.stored row here
    rw [← same] at stored
    obtain ⟨later, now', within⟩ := updated.written record stored
    obtain ⟨kept, also, still, -⟩ := updated.grow _ record stored
    obtain rfl : later = kept := Option.some.inj (now'.symm.trans also)
    have txid : record.value.txid = row.txid := by rw [is]
    exact merges.mergedIn (found.named row here) ⟨_, later, now', still.trans (txid.trans merges.txid.symm), within⟩
  · intro error more after value failed
    cases failed

def EndsProvenOrMerged (now : Clock) (newReq : TableProvenTxReq) (_ : List (Event rocksDb)) (outcome : Except WalletError StorageProvenOrReq)
    (after : Database) : Prop :=
  ∀ value, outcome = .ok value → value.proven = none → MergedIn now newReq after.records

theorem getProvenOrReq_guarded (byTxid : origin.byTxid = true) (now : Clock) (txid : String) (newReq : TableProvenTxReq) :
    (perform hash (getProvenOrReq now txid (some newReq))).Guarded (exec hash) (requestContract origin)
      (EndsProvenOrMerged now newReq) past database := by
  unfold getProvenOrReq
  by_cases other : (some newReq).any (·.txid ≠ txid) = true
  · rw [if_pos other]
    intro value failed
    cases failed
  · rw [if_neg other]
    obtain rfl : newReq.txid = txid := by simpa using other
    have lookup : (find .provenTxs { txid := some newReq.txid }).await.Uses BesideCall := await_uses trivial
    rw [perform_bind]
    refine Program.Guarded.bind ((beside_any (perform_beside hash lookup)).mono fun more outcome after _ => ?_)
    match outcome with
    | .error error => exact fun value failed => by cases failed
    | .ok [] =>
      show (perform hash (retryOnce (upsertProvenTxReq now newReq.txid (some newReq)) >>= fun req =>
        (return { req := req } : StorageM StorageProvenOrReq))).Guarded _ _ _ _ _
      rw [perform_bind]
      have upserts : (perform hash (retryOnce (upsertProvenTxReq now newReq.txid (some newReq)))).Guarded (exec hash)
          (requestContract origin) (EndsMerged now newReq) more after :=
        retryOnce_guarded fun last final => upsertProvenTxReq_guarded byTxid now newReq
      refine Program.Guarded.bind (upserts.mono fun last outcome final ends => ?_)
      cases outcome with
      | ok req => exact fun _ _ _ => ends req rfl
      | error error => exact fun _ failed => by cases failed
    | .ok [proven] =>
      intro value same none
      cases same
      cases none
    | .ok (_ :: _ :: _) => exact fun value failed => by cases failed

end
end WalletToolbox

import WalletToolbox.Provider.ProvenTxReqs
import WalletToolbox.Provider.AttemptToPostReqsToNetwork
import Mathlib.Data.Finset.Sort

/-! What the methods do to the lists of a request in memory: they only add to them. -/

namespace WalletToolbox
open List

theorem nodup_eraseDups [DecidableEq α] : ∀ values : List α, values.eraseDups.Nodup
  | [] => nodup_nil
  | first :: rest => by
    rw [eraseDups_cons]
    refine nodup_cons.mpr ⟨fun member => ?_, nodup_eraseDups _⟩
    have kept := (mem_filter.mp (mem_eraseDups.mp member)).2
    simp at kept
termination_by values => values.length
decreasing_by
  have shorter := length_filter_le (fun value => !value == first) rest
  simp only [length_cons]
  omega

structure ListsWithin (old new : TableProvenTxReq) : Prop where
  notify : old.notify ⊆ new.notify
  history : old.history ⊆ new.history

section
variable {old new first second third : TableProvenTxReq}

theorem ListsWithin.refl (req : TableProvenTxReq) : ListsWithin req req := ⟨List.Subset.refl _, List.Subset.refl _⟩

theorem ListsWithin.trans (earlier : ListsWithin first second) (later : ListsWithin second third) : ListsWithin first third :=
  ⟨fun _ member => later.notify (earlier.notify member), fun _ member => later.history (earlier.history member)⟩

theorem ListsWithin.of_eq (notify : old.notify = new.notify) (history : old.history = new.history) : ListsWithin old new :=
  ⟨notify ▸ List.Subset.refl _, history ▸ List.Subset.refl _⟩

end

def Recorded (now : Clock) (note : ReqHistoryNote) (history : List ReqHistoryNote) : Prop :=
  ∃ kept ∈ history, kept = note ∨ kept = note.stamped now ∨ kept.coveredBy (note.stamped now) = true

theorem Recorded.within {now note before after}
    (recorded : Recorded now note before) (within : before ⊆ after) : Recorded now note after := by
  obtain ⟨kept, member, same⟩ := recorded
  exact ⟨kept, within member, same⟩

namespace EntityProvenTxReq

theorem ofApi_within (api : TableProvenTxReq) : ListsWithin api (ofApi api) :=
  ⟨fun _ member => mem_eraseDups.mpr member, List.Subset.refl _⟩

theorem mem_addNotifyTransactionId {id other req} :
    other ∈ (addNotifyTransactionId id req).notify ↔ other ∈ req.notify ∨ other = id := by
  unfold addNotifyTransactionId
  rw [mem_insertionSort, mem_eraseDups, mem_append, mem_singleton]

theorem addNotifyTransactionId_within (id : Nat) (req : TableProvenTxReq) : ListsWithin req (addNotifyTransactionId id req) :=
  ⟨fun _ member => mem_addNotifyTransactionId.mpr (.inl member), List.Subset.refl _⟩

theorem mergeNotifyTransactionIds_spec (ei req : TableProvenTxReq) :
    ListsWithin req (mergeNotifyTransactionIds ei req) ∧
      ∀ id ∈ ei.notify, id ≠ 0 → id ∈ (mergeNotifyTransactionIds ei req).notify := by
  have loop : ∀ (ids : List Nat) (req : TableProvenTxReq),
      ListsWithin req (ids.foldl (fun req id => addNotifyTransactionId id req) req) ∧
        ∀ id ∈ ids, id ∈ (ids.foldl (fun req id => addNotifyTransactionId id req) req).notify := by
    intro ids
    induction ids with
    | nil => exact fun req => ⟨.refl req, fun id member => by cases member⟩
    | cons first rest ih =>
      intro req
      obtain ⟨within, added⟩ := ih (addNotifyTransactionId first req)
      refine ⟨(addNotifyTransactionId_within first req).trans within, fun id member => ?_⟩
      rcases mem_cons.mp member with rfl | later
      · exact within.notify (mem_addNotifyTransactionId.mpr (.inr rfl))
      · exact added id later
  obtain ⟨within, added⟩ := loop ((ofApi ei).notify.filter (· ≠ 0)) req
  refine ⟨within, fun id member nonzero => added id ?_⟩
  apply mem_filter.mpr
  exact ⟨(ofApi_within ei).notify member, by simpa using nonzero⟩

variable (now : Clock)

theorem addHistoryNote_spec (note : ReqHistoryNote) (req : TableProvenTxReq) :
    ListsWithin req (addHistoryNote now note false req) ∧ Recorded now note (addHistoryNote now note false req).history := by
  have added : addHistoryNote now note false req =
      if req.history.any fun existing => existing.coveredBy (note.stamped now) then req
      else { req with history := (req.history ++ [note.stamped now]).insertionSort fun first second => first.sortKey ≤ second.sortKey } := rfl
  rw [added]
  split
  · next covers =>
    obtain ⟨kept, member, same⟩ := any_eq_true.mp covers
    exact ⟨.refl req, kept, member, .inr (.inr same)⟩
  · refine ⟨⟨List.Subset.refl _, fun other member => ?_⟩, note.stamped now, ?_, .inr (.inl rfl)⟩
    · apply (mem_insertionSort _).mpr
      exact mem_append_left _ member
    · apply (mem_insertionSort _).mpr
      exact mem_append_right _ (mem_singleton_self _)

theorem addHistoryNote_within (note : ReqHistoryNote) (req : TableProvenTxReq) : ListsWithin req (addHistoryNote now note false req) :=
  (addHistoryNote_spec now note req).1

theorem addHistoryNotes_spec (notes : List ReqHistoryNote) (req : TableProvenTxReq) :
    ListsWithin req (addHistoryNotes now notes req) ∧ ∀ note ∈ notes, Recorded now note (addHistoryNotes now notes req).history := by
  unfold addHistoryNotes
  induction notes generalizing req with
  | nil => exact ⟨.refl req, fun note member => by cases member⟩
  | cons first rest ih =>
    obtain ⟨within, recorded⟩ := ih (addHistoryNote now first false req)
    obtain ⟨one, noted⟩ := addHistoryNote_spec now first req
    refine ⟨one.trans within, fun note member => ?_⟩
    rcases mem_cons.mp member with rfl | later
    · exact noted.within within.history
    · exact recorded note later

theorem mergeHistory_spec (ei req : TableProvenTxReq) :
    ListsWithin req (mergeHistory now ei req) ∧ ∀ note ∈ ei.history, Recorded now note (mergeHistory now ei req).history :=
  addHistoryNotes_spec now ei.history req

theorem setStatus_within (status : ProvenTxReqStatus) (req : TableProvenTxReq) : ListsWithin req (setStatus now status req) := by
  unfold setStatus
  dsimp only
  split
  · exact (addHistoryNote_within now (statusNote req.status status) req).trans (.of_eq rfl rfl)
  · exact .of_eq rfl rfl

section
variable (id : Nat) (note : ReqHistoryNote) (noDupes : Bool) (status : ProvenTxReqStatus) (ei req : TableProvenTxReq)

/-! Neither its id nor its txid changes. -/

@[simp] theorem ofApi_id : (ofApi req).provenTxReqId = req.provenTxReqId := rfl
@[simp] theorem ofApi_txid : (ofApi req).txid = req.txid := rfl
@[simp] theorem addNotifyTransactionId_id : (addNotifyTransactionId id req).provenTxReqId = req.provenTxReqId := rfl
@[simp] theorem addNotifyTransactionId_txid : (addNotifyTransactionId id req).txid = req.txid := rfl

theorem addHistoryNote_eq : ∃ history, addHistoryNote now note noDupes req = { req with history } := by
  unfold addHistoryNote
  dsimp only
  by_cases covers : ((if noDupes then withoutOlder (note.stamped now) req.history else req.history).any
      fun existing => existing.coveredBy (note.stamped now)) = true
  · rw [if_pos covers]
    exact ⟨_, rfl⟩
  · rw [if_neg covers]
    exact ⟨_, rfl⟩

@[simp] theorem addHistoryNote_id : (addHistoryNote now note noDupes req).provenTxReqId = req.provenTxReqId := by
  obtain ⟨history, same⟩ := addHistoryNote_eq now note noDupes req
  rw [same]

@[simp] theorem addHistoryNote_txid : (addHistoryNote now note noDupes req).txid = req.txid := by
  obtain ⟨history, same⟩ := addHistoryNote_eq now note noDupes req
  rw [same]

@[simp] theorem addHistoryNote_status : (addHistoryNote now note noDupes req).status = req.status := by
  obtain ⟨history, same⟩ := addHistoryNote_eq now note noDupes req
  rw [same]

@[simp] theorem addHistoryNote_notify : (addHistoryNote now note noDupes req).notify = req.notify := by
  obtain ⟨history, same⟩ := addHistoryNote_eq now note noDupes req
  rw [same]

@[simp] theorem addHistoryNotes_id (notes : List ReqHistoryNote) : (addHistoryNotes now notes req).provenTxReqId = req.provenTxReqId := by
  unfold addHistoryNotes
  induction notes generalizing req with
  | nil => rfl
  | cons first rest ih => exact (ih _).trans (addHistoryNote_id now first false req)

@[simp] theorem addHistoryNotes_txid (notes : List ReqHistoryNote) : (addHistoryNotes now notes req).txid = req.txid := by
  unfold addHistoryNotes
  induction notes generalizing req with
  | nil => rfl
  | cons first rest ih => exact (ih _).trans (addHistoryNote_txid now first false req)

@[simp] theorem mergeHistory_id : (mergeHistory now ei req).provenTxReqId = req.provenTxReqId := addHistoryNotes_id now req _
@[simp] theorem mergeHistory_txid : (mergeHistory now ei req).txid = req.txid := addHistoryNotes_txid now req _

theorem mergeNotifyTransactionIds_keys : (mergeNotifyTransactionIds ei req).provenTxReqId = req.provenTxReqId ∧
    (mergeNotifyTransactionIds ei req).txid = req.txid := by
  unfold mergeNotifyTransactionIds
  induction (ofApi ei).notify.filter (· ≠ 0) generalizing req with
  | nil => exact ⟨rfl, rfl⟩
  | cons first rest ih => exact ih (addNotifyTransactionId first req)

@[simp] theorem mergeNotifyTransactionIds_id : (mergeNotifyTransactionIds ei req).provenTxReqId = req.provenTxReqId :=
  (mergeNotifyTransactionIds_keys ei req).1

@[simp] theorem mergeNotifyTransactionIds_txid : (mergeNotifyTransactionIds ei req).txid = req.txid :=
  (mergeNotifyTransactionIds_keys ei req).2

@[simp] theorem setStatus_id : (setStatus now status req).provenTxReqId = req.provenTxReqId := by
  unfold setStatus
  dsimp only
  split
  · exact addHistoryNote_id now _ _ req
  · rfl

@[simp] theorem setStatus_status : (setStatus now status req).status = status := rfl

@[simp] theorem setStatus_notify : (setStatus now status req).notify = req.notify := by
  unfold setStatus
  dsimp only
  split
  · exact addHistoryNote_notify now _ _ req
  · rfl

end

theorem notify_addAll (ids : List Nat) (req : TableProvenTxReq) :
    (ids ≠ [] → (ids.foldl (fun req id => addNotifyTransactionId id req) req).notify.SortedLT) ∧
      ∀ id, id ∈ (ids.foldl (fun req id => addNotifyTransactionId id req) req).notify ↔ id ∈ req.notify ∨ id ∈ ids := by
  induction ids generalizing req with
  | nil => simp
  | cons id ids ih =>
    obtain ⟨sorted, members⟩ := ih (addNotifyTransactionId id req)
    refine ⟨fun _ => ?_, fun other => ?_⟩
    · cases ids with
      | nil => exact sortedLT_iff_nodup_and_sortedLE.mpr ⟨(perm_insertionSort _ _).nodup_iff.mpr (nodup_eraseDups _), sortedLE_insertionSort⟩
      | cons => exact sorted (cons_ne_nil _ _)
    · rw [foldl_cons, members, mem_addNotifyTransactionId, mem_cons, or_assoc]

/-- The requests merged into one leave it the ids of them all in ascending order, whichever is merged first and however often. -/
theorem mergedNotify_eq (eis : List TableProvenTxReq) (req : TableProvenTxReq) :
    (eis.foldl (fun req ei => mergeNotifyTransactionIds ei req) req).notify =
      if ∀ ei ∈ eis, ∀ id ∈ ei.notify, id = 0 then req.notify
      else (req.notify.toFinset ∪ ((eis.flatMap (·.notify)).toFinset.erase 0)).sort := by
  have added : eis.foldl (fun req ei => mergeNotifyTransactionIds ei req) req =
      (eis.flatMap fun ei => (ofApi ei).notify.filter (· ≠ 0)).foldl (fun req id => addNotifyTransactionId id req) req := by
    rw [foldl_flatMap]
    rfl
  obtain ⟨sorted, members⟩ := notify_addAll (eis.flatMap fun ei => (ofApi ei).notify.filter (· ≠ 0)) req
  rw [added]
  split
  · next none =>
    have empty : (eis.flatMap fun ei => (ofApi ei).notify.filter (· ≠ 0)) = [] := by
      simpa [ofApi] using none
    rw [empty]
    rfl
  · next some =>
    have filled : (eis.flatMap fun ei => (ofApi ei).notify.filter (· ≠ 0)) ≠ [] := by
      simpa [ofApi] using some
    refine (sorted filled).eq_of_mem_iff (Finset.sortedLT_sort _) fun id => ?_
    rw [members]
    simp only [Finset.mem_sort, Finset.mem_union, mem_toFinset, Finset.mem_erase, mem_flatMap, mem_filter, ofApi, mem_eraseDups,
      decide_eq_true_eq, ← and_assoc, exists_and_right]
    tauto

end EntityProvenTxReq
end WalletToolbox

import WalletToolbox.Proofs.RequestWrites

/-! The methods on the requests keep their contract: what each of them writes holds all
that it has seen. -/

namespace WalletToolbox
open Async StorageRocksDb List

section
variable {hash : ScriptHash} {origin : Origin} {past more : List (Event rocksDb)} {database before after : Database}

theorem requestRely_refl (keyed : RequestsKeyed database.records) : (requestContract origin).rely past database database :=
  ⟨keyed, .refl _⟩

structure Leaves (origin : Origin) (past more : List (Event rocksDb)) (before after : Database) : Prop where
  seen : ∀ key, lastSeen origin more key = lastSeen origin past key
  keyed : RequestsKeyed after.records
  grow : RequestsGrow before.records after.records

theorem Leaves.reflects (leaves : Leaves origin past more before after) (reflects : Reflects origin past req) :
    Reflects origin more req := by
  intro seen last
  rw [leaves.seen] at last
  exact reflects seen last

theorem beside_guarded {program : RocksDbM α} (byId : origin.byTxid = false) (uses : program.Uses Beside)
    (keyed : RequestsKeyed database.records) :
    program.Guarded (exec hash) (requestContract origin) (fun more _ after => Leaves origin past more database after) past database := by
  induction program generalizing past database with
  | done _ | fail _ => exact ⟨fun _ => rfl, keyed, .refl _⟩
  | await op next ih =>
    intro current relied _
    obtain ⟨now, grown⟩ := relied
    refine ⟨beside_does uses.1, ?_⟩
    obtain ⟨kept, grows⟩ := (beside_does uses.1 : RequestOp current.records op).keeps hash now
    refine (ih _ (uses.2 _) kept).mono fun more outcome after leaves => ?_
    refine ⟨fun key => ?_, leaves.keyed, grown.trans (grows.trans leaves.grow)⟩
    rw [leaves.seen, lastSeen_append]
    exact nextSeen_beside byId uses.1 _ key _

structure Updated (origin : Origin) (req : TableProvenTxReq) (past more : List (Event rocksDb)) (before after : Database) : Prop where
  reflects : Reflects origin more req
  others : ∀ key, key ≠ rowKey .provenTxReqs req → lastSeen origin more key = lastSeen origin past key
  keyed : RequestsKeyed after.records
  grow : RequestsGrow before.records after.records
  written : ∀ row, before.records.row .provenTxReqs (rowKey .provenTxReqs req) = some row →
    ∃ later, after.records.row .provenTxReqs (rowKey .provenTxReqs req) = some later ∧ ListsWithin req later.value

theorem updateRequest_guarded (reflects : Reflects origin past req)
    (lists : ∀ old, (spread old).notify = req.notify ∧ (spread old).history = req.history)
    (id : ∀ old, old.provenTxReqId = req.provenTxReqId → (spread old).provenTxReqId = req.provenTxReqId)
    (txid : ∀ old, (∀ row, database.records.row .provenTxReqs (rowKey .provenTxReqs req) = some row → old.txid = row.value.txid) →
      (spread old).txid = old.txid)
    (keyed : RequestsKeyed database.records) :
    (updateById .provenTxReqs req.provenTxReqId spread).Guarded (exec hash) (requestContract origin)
      (fun more _ after => Updated origin req past more database after) past database := by
  have steps : updateById .provenTxReqs req.provenTxReqId spread =
      .await (.get (.entity .provenTxReqs (rowKey .provenTxReqs req))) fun record =>
        match record.map Versioned.value with
        | none => .done 0
        | some existing => .await (.get (.entity .provenTxReqs (rowKey .provenTxReqs (spread existing)))) fun current =>
            .await (.put (.entity .provenTxReqs (rowKey .provenTxReqs (spread existing))) (encode (spread existing) current)) fun _ => .done 1 := by
    refine Program.await_congr fun record => ?_
    cases record <;> rfl
  rw [steps]
  intro current relied _
  obtain ⟨now, grown⟩ := relied
  refine ⟨trivial, ?_⟩
  have others : ∀ {reply : Option (Versioned TableProvenTxReq)} {earlier : List (Event rocksDb)} (key : RowKey),
      key ≠ rowKey .provenTxReqs req → lastSeen origin (earlier ++ [⟨.get (.entity .provenTxReqs (rowKey .provenTxReqs req)), reply⟩]) key =
        lastSeen origin earlier key := by
    intro reply earlier key different
    rw [lastSeen_append, nextSeen_get, if_neg (Ne.symm different)]
  rcases found : current.records.row .provenTxReqs (rowKey .provenTxReqs req) with _ | old
  · -- there is nothing to update
    have reply : (exec hash (.get (.entity .provenTxReqs (rowKey .provenTxReqs req))) current) = (none, current) := congrArg (·, current) found
    rw [reply]
    refine ⟨fun seen last => ?_, others, now, grown, fun row stored => ?_⟩
    · rw [lastSeen_append, nextSeen_get, if_pos rfl] at last
      cases last
    · obtain ⟨later, kept, -⟩ := grown _ row stored
      rw [found] at kept
      cases kept
  · have reply : (exec hash (.get (.entity .provenTxReqs (rowKey .provenTxReqs req))) current) = (some old, current) := congrArg (·, current) found
    rw [reply]
    have named := RowKey.id.inj (now _ old found)
    have same : rowKey .provenTxReqs (spread old.value) = rowKey .provenTxReqs req := congrArg RowKey.id (id old.value named)
    have oldTxid : ∀ row, database.records.row .provenTxReqs (rowKey .provenTxReqs req) = some row → old.value.txid = row.value.txid := by
      intro row stored
      obtain ⟨later, kept, still, -⟩ := grown _ row stored
      have here : some later = some old := kept.symm.trans found
      cases here
      exact still
    dsimp only [Option.map_some]
    rw [same]
    intro second later _
    refine ⟨trivial, fun third last permitted => ?_⟩
    obtain ⟨keptKeyed, keptGrow⟩ := last
    have grownTo := later.2.trans keptGrow
    have does : RequestOp third.records (.put (.entity .provenTxReqs (rowKey .provenTxReqs req))
        (encode (spread old.value) (exec hash (.get (.entity .provenTxReqs (rowKey .provenTxReqs req))) second).1)) := by
      refine ⟨same, fun stored here => ?_⟩
      obtain ⟨kept, has, still, -⟩ := grownTo _ old found
      obtain rfl : kept = stored := Option.some.inj (has.symm.trans here)
      refine ⟨(txid old.value oldTxid).trans still.symm, ?_⟩
      obtain ⟨earlier, first, next, seen, split, -, -, last, within⟩ := permitted kept here
      rw [append_assoc] at split
      obtain rfl : past = earlier := append_inj_left' split rfl
      have listed := within.trans (reflects seen last)
      exact ⟨(lists old.value).1 ▸ listed.notify, (lists old.value).2 ▸ listed.history⟩
    refine ⟨does, ?_⟩
    obtain ⟨finalKeyed, finalGrow⟩ := does.keeps hash keptKeyed
    refine ⟨fun seen last => ?_, fun key different => ?_, finalKeyed, grown.trans (grownTo.trans finalGrow), fun row stored => ?_⟩
    · rw [lastSeen_append, nextSeen_put, if_pos rfl] at last
      cases last
      exact .of_eq (lists old.value).1 (lists old.value).2
    · rw [lastSeen_append, nextSeen_put, if_neg (Ne.symm different), others key different, others key different]
    · refine ⟨_, row_insert_same, .of_eq (lists old.value).1.symm (lists old.value).2.symm⟩

def Fresh (past : List (Event rocksDb)) : Prop := ∀ event ∈ past.getLast?, ∀ key, ¬ ReadsRequest key event

theorem Fresh.append (event : Event rocksDb) (other : ∀ key, ¬ ReadsRequest key event) : Fresh (past ++ [event]) := by
  intro last is
  rw [getLast?_concat] at is
  cases is
  exact other

theorem Fresh.unstored (fresh : Fresh past)
    (upToDate : UpToDate origin (past ++ [event]) key records) : records.row .provenTxReqs key = none := by
  cases stored : records.row .provenTxReqs key with
  | none => rfl
  | some row =>
    obtain ⟨earlier, first, second, seen, split, reads, -⟩ := upToDate row stored
    have same : past = earlier ++ [first] := by
      apply append_inj_left' (split.trans (append_cons earlier first [second])) rfl
    refine absurd reads (fresh first ?_ key)
    rw [same, getLast?_concat]
    rfl

structure Inserted (origin : Origin) (req inserted : TableProvenTxReq) (more : List (Event rocksDb)) (before after : Database) : Prop where
  same : ∃ id, inserted = { req with provenTxReqId := id }
  reflects : Reflects origin more inserted
  keyed : RequestsKeyed after.records
  grow : RequestsGrow before.records after.records
  stored : ∃ row, after.records.row .provenTxReqs (rowKey .provenTxReqs inserted) = some row ∧ row.value = inserted

theorem insertRequest_guarded (fresh : Fresh past) (keyed : RequestsKeyed database.records) :
    (insertEntity .provenTxReqs req).Guarded (exec hash) (requestContract origin)
      (fun more outcome after => ∃ inserted, outcome = .ok inserted ∧ Inserted origin req inserted more database after) past database := by
  have puts : ∀ {earlier : List (Event rocksDb)} {current : Database} (id : Nat), Fresh earlier → RequestsKeyed current.records →
      RequestsGrow database.records current.records →
      (putEntity .provenTxReqs { req with provenTxReqId := id } >>= fun _ =>
        (.done { req with provenTxReqId := id } : RocksDbM _)).Guarded (exec hash) (requestContract origin)
        (fun more outcome after => ∃ inserted, outcome = .ok inserted ∧ Inserted origin req inserted more database after) earlier current := by
    intro earlier current id fresh keyed grown second relied _
    refine ⟨trivial, fun third later permitted => ?_⟩
    obtain ⟨now, grows⟩ := later
    have absent := fresh.unstored permitted
    have does : RequestOp third.records (.put (.entity .provenTxReqs (rowKey .provenTxReqs { req with provenTxReqId := id }))
        (encode { req with provenTxReqId := id }
          (exec hash (.get (.entity .provenTxReqs (rowKey .provenTxReqs { req with provenTxReqId := id }))) second).1)) := by
      refine ⟨rfl, fun old stored => ?_⟩
      rw [absent] at stored
      cases stored
    obtain ⟨finalKeyed, finalGrow⟩ := does.keeps hash now
    refine ⟨does, _, rfl, ⟨id, rfl⟩, fun seen last => ?_, finalKeyed, grown.trans (relied.2.trans (grows.trans finalGrow)), _, row_insert_same, rfl⟩
    rw [lastSeen_append, nextSeen_put, if_pos rfl] at last
    cases last
    exact .refl _
  have prepares : insertEntity .provenTxReqs req = (prepareInsert .provenTxReqs req >>= fun prepared =>
      putEntity .provenTxReqs prepared >>= fun _ => .done prepared) := rfl
  rw [prepares]
  unfold prepareInsert
  split
  · intro current relied _
    refine ⟨trivial, ?_⟩
    have rows := fun key => takeId_row .provenTxReqs .provenTxReqs key current
    refine puts _ (Fresh.append _ fun key reads => by cases reads) (relied.1.of_rows rows) (relied.2.trans (.of_rows rows))
  · exact puts req.provenTxReqId fresh keyed (.refl _)

structure FoundByTxid (origin : Origin) (txid : String) (more : List (Event rocksDb)) (rows : List TableProvenTxReq) (after : Database) : Prop where
  fresh : Fresh more
  keyed : RequestsKeyed after.records
  named : ∀ row ∈ rows, row.txid = txid
  seen : ∀ row ∈ rows, lastSeen origin more (rowKey .provenTxReqs row) = some row
  stored : ∀ row ∈ rows, ∃ record, after.records.row .provenTxReqs (rowKey .provenTxReqs row) = some record ∧ record.value = row

theorem findByTxid_guarded (byTxid : origin.byTxid = true) (txid : String) :
    (findProvenTxReqs { txid := some txid }).Guarded (exec hash) (requestContract origin)
      (fun more outcome after => RequestsGrow database.records after.records ∧
        ∃ rows, outcome = .ok rows ∧ FoundByTxid origin txid more rows after) past database := by
  intro current relied _
  obtain ⟨now, grown⟩ := relied
  refine ⟨trivial, grown, _, rfl, ?_⟩
  have listed : ∀ row ∈ ((scanEntities .provenTxReqs current.records).map Versioned.value).filter
      (matchesProvenTxReqPartial · { txid := some txid }), row.txid = txid ∧
        ∃ record, current.records.row .provenTxReqs (rowKey .provenTxReqs row) = some record ∧ record.value = row := by
    intro row member
    obtain ⟨scanned, accepts⟩ := mem_filter.mp member
    obtain ⟨record, inside, rfl⟩ := mem_map.mp scanned
    obtain ⟨key, stored⟩ := mem_scanEntities.mp inside
    refine ⟨?_, record, ?_, rfl⟩
    · simpa [matchesProvenTxReqPartial, eq, eqOptional, eq_comm] using accepts
    · rw [now key record stored]
      exact stored
  have sorted : ∀ {rows : List TableProvenTxReq} {row : TableProvenTxReq}, row ∈ rows.insertionSort (fun first second =>
      keyPrecedes (rowKey .provenTxReqs first) (rowKey .provenTxReqs second) = true) → row ∈ rows :=
    fun member => (mem_insertionSort _).mp member
  refine ⟨Fresh.append _ (fun key reads => by cases reads), now, fun row member => (listed row (sorted member)).1, fun row member => ?_,
    fun row member => (listed row (sorted member)).2⟩
  obtain ⟨-, record, stored, value⟩ := listed row (sorted member)
  have scanned : nextSeen origin (rowKey .provenTxReqs row) (lastSeen origin past (rowKey .provenTxReqs row))
      ⟨.scan .provenTxReqs, scanEntities .provenTxReqs current.records⟩ =
        requestAt (rowKey .provenTxReqs row) ((scanEntities .provenTxReqs current.records).map Versioned.value) := if_pos byTxid
  have here : row ∈ (scanEntities .provenTxReqs current.records).map Versioned.value :=
    mem_map.mpr ⟨record, mem_scanEntities.mpr ⟨_, stored⟩, value⟩
  refine (lastSeen_append _ _).trans (scanned.trans ?_)
  unfold requestAt
  cases found : find? (fun other => rowKey .provenTxReqs other = rowKey .provenTxReqs row)
      ((scanEntities .provenTxReqs current.records).map Versioned.value) with
  | none => simpa using find?_eq_none.mp found row here
  | some other =>
    -- one key has one row
    have same : rowKey .provenTxReqs other = rowKey .provenTxReqs row := by simpa using find?_some found
    obtain ⟨twin, inside, rfl⟩ := mem_map.mp (mem_of_find?_eq_some found)
    obtain ⟨key, also⟩ := mem_scanEntities.mp inside
    obtain rfl : rowKey .provenTxReqs twin.value = key := now key twin also
    rw [same] at also
    have one : twin = record := Option.some.inj (also.symm.trans stored)
    rw [one, value]

end
end WalletToolbox

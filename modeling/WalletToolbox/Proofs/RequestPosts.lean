import WalletToolbox.Proofs.RequestMethods

/-! The methods that look their request up by its id, or are handed it: what becomes of
a posted request, and of one whose proof has arrived. -/

namespace WalletToolbox
open Effects Async EntityProvenTxReq StorageProvider StorageReaderWriter StorageRocksDb List

section
variable {hash : ScriptHash} {origin : Origin} {past more : List (Event rocksDb)} {database after : Database} {α : Type}

theorem findById_guarded (id : Nat) :
    (findProvenTxReqs { provenTxReqId := some id }).Guarded (exec hash) (requestContract origin)
      (fun more outcome after => RequestsKeyed after.records ∧
        ∃ rows, outcome = .ok rows ∧ ∀ row ∈ rows, row.provenTxReqId = id ∧ lastSeen origin more (rowKey .provenTxReqs row) = some row)
      past database := by
  intro current relied _
  refine ⟨trivial, relied.1, _, rfl, fun row member => ?_⟩
  obtain ⟨has, accepts⟩ := Option.filter_eq_some_iff.mp (Option.mem_toList.mp member)
  have named : row.provenTxReqId = id := by
    have matched : eq (some id) row.provenTxReqId = true := by
      simp only [matchesProvenTxReqPartial, Bool.and_eq_true] at accepts
      exact accepts.1.1.1.1
    simpa [eq, eq_comm] using matched
  refine ⟨named, ?_⟩
  rw [lastSeen_append]
  exact (if_pos (congrArg RowKey.id named.symm)).trans has

theorem readById_seq {id : Nat} {verify : List TableProvenTxReq → StorageM α}
    (rest : ∀ rows more after, RequestsKeyed after.records →
      (∀ row ∈ rows, row.provenTxReqId = id ∧ lastSeen origin more (rowKey .provenTxReqs row) = some row) →
      (perform hash (verify rows)).Guarded (exec hash) (requestContract origin) post more after) :
    (perform hash ((StorageCall.find .provenTxReqs { provenTxReqId := some id }).await >>= verify)).Guarded (exec hash)
      (requestContract origin) post past database := by
  rw [perform_bind, perform_await]
  refine Program.Guarded.bind ((findById_guarded id).mono fun more outcome after found => ?_)
  obtain ⟨keyed, rows, rfl, seen⟩ := found
  exact rest rows more after keyed seen

theorem reflects_read (seen : lastSeen origin past (rowKey .provenTxReqs row) = some row) :
    Reflects origin past (ofApi row) := by
  intro last is
  have same := seen.symm.trans is
  cases same
  exact ofApi_within row

theorem fromStorageId_seq {next : TableProvenTxReq → StorageM α} {id : Nat} (rest : ∀ req more after, RequestsKeyed after.records →
      Reflects origin more req → (perform hash (next req)).Guarded (exec hash) (requestContract origin) anyEnd more after) :
    (perform hash (fromStorageId id >>= next)).Guarded (exec hash) (requestContract origin) anyEnd past database := by
  unfold fromStorageId
  rw [bind_assoc]
  refine readById_seq fun rows more after keyed seen => ?_
  match rows with
  | [] | _ :: _ :: _ => trivial
  | [row] => exact rest (ofApi row) more after keyed (reflects_read (seen row (mem_singleton_self row)).2)

theorem refresh_seq {next : TableProvenTxReq → StorageM α} {req : TableProvenTxReq} (rest : ∀ read more after, RequestsKeyed after.records →
      Reflects origin more read → (perform hash (next read)).Guarded (exec hash) (requestContract origin) anyEnd more after) :
    (perform hash (refreshFromStorage req >>= next)).Guarded (exec hash) (requestContract origin) anyEnd past database := by
  unfold refreshFromStorage
  rw [bind_assoc]
  refine readById_seq fun rows more after keyed seen => ?_
  match rows with
  | [] | _ :: _ :: _ => trivial
  | [row] => exact rest (ofApi row) more after keyed (reflects_read (seen row (mem_singleton_self row)).2)

theorem StatusCall.beside (call : StorageCall) (status : StatusCall call) : BesideCall call := by
  cases call with
  | allocateChangeInput => exact status.elim
  | insert table => cases table <;> exact status.elim
  | update table | find table => cases table <;> first | exact status.elim | trivial

/-! The proof of a request. -/

variable (now : Clock)

theorem notifyEachOfProof_guarded (provenTxId : Nat) (byId : origin.byTxid = false)
    (reflects : Reflects origin past req) (keyed : RequestsKeyed database.records) :
    (perform hash (notifyEachOfProof now provenTxId ids req)).Guarded (exec hash) (requestContract origin)
      (fun more outcome after => RequestsKeyed after.records ∧ ∀ noted, outcome = .ok noted → Reflects origin more noted)
      past database := by
  induction ids generalizing past database req with
  | nil =>
    refine ⟨keyed, fun noted same => ?_⟩
    cases same
    exact reflects
  | cons id rest ih =>
    unfold notifyEachOfProof
    refine beside_seq byId (Program.Uses.settle (await_uses trivial)) keyed (fun outcome more after leaves => ?_)
      fun error more after leaves => ⟨leaves.keyed, fun noted failed => by cases failed⟩
    apply ih _ leaves.keyed
    exact (leaves.reflects reflects).within (addHistoryNote_id now _ _ req) (addHistoryNote_within now _ req)

theorem notifyTransactionsOfProof_guarded (provenTxId : Nat) (byId : origin.byTxid = false)
    (reflects : Reflects origin past req) (keyed : RequestsKeyed database.records) :
    (perform hash (notifyTransactionsOfProof now ids provenTxId req)).Guarded (exec hash) (requestContract origin)
      anyEnd past database := by
  unfold notifyTransactionsOfProof
  split
  · trivial
  · rw [perform_bind]
    refine Program.Guarded.bind ((notifyEachOfProof_guarded now provenTxId byId reflects keyed).mono fun more outcome after ends => ?_)
    obtain ⟨keyed, noted⟩ := ends
    cases outcome with
    | error error => trivial
    | ok req => exact update_seq (noted req rfl) keyed (fun _ _ _ _ => trivial) fun _ _ _ _ => trivial

theorem completeReqScope_guarded (args : UpdateProvenTxReqWithNewProvenTxArgs) (byId : origin.byTxid = false)
    (reflects : Reflects origin past req) (keyed : RequestsKeyed database.records) :
    (perform hash (completeReqScope now args req)).Guarded (exec hash) (requestContract origin)
      (fun more outcome after => RequestsKeyed after.records ∧ ∀ result, outcome = .ok result → Reflects origin more result.2.2)
      past database := by
  unfold completeReqScope
  refine beside_seq byId (findOrInsertProvenTx_uses trivial trivial) keyed (fun result more after leaves => ?_)
    fun error more after leaves => ⟨leaves.keyed, fun result failed => by cases failed⟩
  obtain ⟨proven, isNew⟩ := result
  have here := leaves.reflects reflects
  cases isNew with
  | false =>
    refine ⟨leaves.keyed, fun result same => ?_⟩
    cases same
    exact here
  | true =>
    have completed : Reflects origin more { setStatus now .completed req with provenTxId := some proven.provenTxId } :=
      here.within (setStatus_id now .completed req) ((setStatus_within now .completed req).trans (.of_eq rfl rfl))
    refine update_seq completed leaves.keyed (fun count last final updated => ?_) fun error last final updated => ⟨updated.keyed, fun result failed => by cases failed⟩
    refine ⟨updated.keyed, fun result same => ?_⟩
    cases same
    exact updated.reflects

theorem updateProvenTxReqWithNewProvenTx_guarded (args : UpdateProvenTxReqWithNewProvenTxArgs) (byId : origin.byTxid = false) :
    (perform hash (updateProvenTxReqWithNewProvenTx now args)).Guarded (exec hash) (requestContract origin)
      anyEnd past database := by
  unfold updateProvenTxReqWithNewProvenTx
  refine fromStorageId_seq fun req more after keyed reflects => ?_
  split
  · refine beside_any (perform_beside hash ?_)
    exact Program.Uses.bind (await_uses trivial) fun rows => (verifyOne_uses rows).bind fun _ => trivial
  · rw [perform_bind]
    refine Program.Guarded.bind ((completeReqScope_guarded now args byId reflects keyed).mono fun last outcome final ends => ?_)
    obtain ⟨keyed, completed⟩ := ends
    match outcome with
    | .error error => trivial
    | .ok (proven, false, req) => trivial
    | .ok (proven, true, req) =>
      show (perform hash (notifyTransactionsOfProof now req.notify proven.provenTxId req >>= _)).Guarded _ _ _ _ _
      rw [perform_bind]
      refine Program.Guarded.bind ((notifyTransactionsOfProof_guarded now _ byId (completed _ rfl) keyed).mono fun _ outcome _ _ => ?_)
      cases outcome with
      | ok _ => trivial
      | error _ => trivial

/-! Posting. -/

def LooksUpProven : StorageCall → Prop
  | .find .provenTxs _ => True
  | .find .provenTxReqs wanted => wanted.provenTxReqId = none
  | _ => False

theorem LooksUpProven.beside (call : StorageCall) (looks : LooksUpProven call) : BesideCall call := by
  cases call with
  | allocateChangeInput => exact looks.elim
  | insert table | update table => cases table <;> exact looks.elim
  | find table => cases table <;> first | exact looks.elim | trivial

section
variable (posting : Posting)

structure ValidatedReqs (origin : Origin) (past more : List (Event rocksDb)) (reqs vreqs : List TableProvenTxReq) (after : Database) : Prop where
  keyed : RequestsKeyed after.records
  kept : vreqs.Sublist reqs
  reflect : ∀ vreq ∈ vreqs, Reflects origin more vreq
  others : ∀ key, (∀ req ∈ reqs, rowKey .provenTxReqs req ≠ key) → lastSeen origin more key = lastSeen origin past key

theorem Leaves.validated (leaves : Leaves origin past more database after)
    (kept : vreqs.Sublist [req]) (reflects : Reflects origin past req) : ValidatedReqs origin past more [req] vreqs after where
  keyed := leaves.keyed
  kept := kept
  reflect := by
    intro vreq member
    obtain rfl := mem_singleton.mp (kept.subset member)
    exact leaves.reflects reflects
  others key _ := leaves.seen key

theorem Updated.validated {req written last before}
    (leaves : ∀ key, key ≠ rowKey .provenTxReqs req → lastSeen origin more key = lastSeen origin past key)
    (updated : Updated origin written more last before after) (same : written.provenTxReqId = req.provenTxReqId) :
    ValidatedReqs origin past last [req] [] after where
  keyed := updated.keyed
  kept := nil_sublist _
  reflect := by
    intro vreq member
    cases member
  others := by
    intro key other
    have different := (other req (mem_singleton_self req)).symm
    have key' : key ≠ rowKey .provenTxReqs written := fun here => different (here.trans (congrArg RowKey.id same))
    exact (updated.others key key').trans (leaves key different)

theorem validateReqError_guarded {handed} (error : WalletError)
    (same : req.provenTxReqId = handed.provenTxReqId)
    (leaves : ∀ key, key ≠ rowKey .provenTxReqs handed → lastSeen origin past key = lastSeen origin earlier key)
    (reflects : Reflects origin past req) (keyed : RequestsKeyed database.records) :
    (perform hash (validateReqError now req error)).Guarded (exec hash) (requestContract origin)
      (fun last outcome after => ∀ result, outcome = .ok result → ValidatedReqs origin earlier last [handed] result.vreq.toList after)
      past database := by
  unfold validateReqError
  dsimp only
  have tried : ∀ {changed : TableProvenTxReq}, changed.provenTxReqId = req.provenTxReqId → ListsWithin req changed →
      ∀ details, (perform hash (updateStorageDynamicProperties changed >>= fun _ =>
        (return ⟨details, none⟩ : StorageM Validated))).Guarded (exec hash) (requestContract origin)
        (fun last outcome after => ∀ result, outcome = .ok result → ValidatedReqs origin earlier last [handed] result.vreq.toList after)
        past database := by
    intro changed id within details
    refine update_seq (reflects.within id within) keyed (fun _ last final updated => ?_) fun _ _ _ _ result failed => by cases failed
    intro result ok
    cases ok
    exact updated.validated leaves (id.trans same)
  have noted := addHistoryNote_within now (validateReqErrorNote req error) req
  apply tried
  · split
    · exact (setStatus_id now .invalid _).trans (addHistoryNote_id now _ false req)
    · exact addHistoryNote_id now _ false req
  · split
    · refine ListsWithin.trans ?_ (setStatus_within now .invalid _)
      exact noted.trans (.of_eq rfl rfl)
    · exact noted.trans (.of_eq rfl rfl)

theorem validateReq_guarded (byId : origin.byTxid = false) {req}
    (looksUp : (posting.mergeReqToBeefToShareExternally req).Uses LooksUpProven) (reflects : Reflects origin past req)
    (keyed : RequestsKeyed database.records) :
    (perform hash (validateReq now posting req)).Guarded (exec hash) (requestContract origin)
      (fun more outcome after => ∀ result, outcome = .ok result → ValidatedReqs origin past more [req] result.vreq.toList after)
      past database := by
  unfold validateReq
  split
  · have id := (setStatus_id now .invalid _).trans (addHistoryNote_id now (validateReqFailedNote req) false req)
    have within := (addHistoryNote_within now (validateReqFailedNote req) req).trans (setStatus_within now .invalid _)
    rw [perform_bind, perform_settle]
    refine Program.Guarded.bind (Program.Guarded.settle ((updateDynamics_guarded (reflects.within id within) keyed).mono
      fun more outcome after updated => ?_))
    cases outcome with
    | ok count =>
      intro result ok
      cases ok
      exact updated.validated (fun _ _ => rfl) id
    | error error =>
      refine validateReqError_guarded now error id (fun key different => ?_) updated.reflects updated.keyed
      exact updated.others key fun here => different (here.trans (congrArg RowKey.id id))
  · refine beside_seq byId (looksUp.mono LooksUpProven.beside).settle keyed (fun outcome more after leaves => ?_)
      fun _ _ _ _ result failed => by cases failed
    cases outcome with
    | ok _ =>
      intro result ok
      cases ok
      exact leaves.validated (List.Sublist.refl _) reflects
    | error error => exact validateReqError_guarded now error rfl (fun key _ => leaves.seen key) (leaves.reflects reflects) leaves.keyed

end

section
variable (posting : Posting)

theorem validateReqs_guarded (byId : origin.byTxid = false)
    (looksUp : ∀ req, (posting.mergeReqToBeefToShareExternally req).Uses LooksUpProven)
    (different : (reqs.map TableProvenTxReq.provenTxReqId).Nodup) (reflect : ∀ req ∈ reqs, Reflects origin past req)
    (keyed : RequestsKeyed database.records) :
    (perform hash (validateReqsAndMergeBeefs now posting reqs)).Guarded (exec hash) (requestContract origin)
      (fun more outcome after => ∀ result, outcome = .ok result → ValidatedReqs origin past more reqs result.2 after) past database := by
  induction reqs generalizing past database with
  | nil =>
    intro result ok
    cases ok
    exact ⟨keyed, List.Sublist.refl _, fun vreq member => (by cases member), fun _ _ => rfl⟩
  | cons req rest ih =>
    obtain ⟨apart, distinct⟩ := nodup_cons.mp different
    have others : ∀ other ∈ rest, rowKey .provenTxReqs other ≠ rowKey .provenTxReqs req := by
      intro other member same
      exact apart (mem_map.mpr ⟨other, member, RowKey.id.inj same⟩)
    unfold validateReqsAndMergeBeefs
    rw [perform_bind]
    refine Program.Guarded.bind ((validateReq_guarded now posting byId (looksUp req) (reflect req (.head _)) keyed).mono fun more outcome after one => ?_)
    cases outcome with
    | error error => exact fun result failed => by cases failed
    | ok validated =>
      have first := one validated rfl
      have still : ∀ other ∈ rest, Reflects origin more other := by
        intro other member seen last
        have apart' : lastSeen origin more (rowKey .provenTxReqs other) = lastSeen origin past (rowKey .provenTxReqs other) := by
          apply first.others
          intro handed here
          rw [mem_singleton.mp here]
          exact (others other member).symm
        rw [apart'] at last
        exact reflect other (.tail _ member) seen last
      dsimp only
      rw [perform_bind]
      refine Program.Guarded.bind ((ih distinct still first.keyed).mono fun last outcome final many => ?_)
      cases outcome with
      | error error => exact fun result failed => by cases failed
      | ok pair =>
        have second := many pair rfl
        intro result ok
        cases ok
        refine ⟨second.keyed, first.kept.append second.kept, fun vreq member => ?_, fun key other => ?_⟩
        · rcases mem_append.mp member with mine | later
          · obtain rfl := mem_singleton.mp (first.kept.subset mine)
            intro seen is
            rw [second.others _ others] at is
            exact first.reflect vreq mine seen is
          · exact second.reflect vreq later
        · rw [second.others key fun req member => other req (.tail _ member)]
          apply first.others
          intro handed here
          rw [mem_singleton.mp here]
          exact other req (.head _)

end

theorem replaceReq_spec
    (found : vreqs.find? (·.txid = txid) = some vreq) (named : noted.txid = txid) (same : noted.provenTxReqId = vreq.provenTxReqId)
    (distinct : (vreqs.map TableProvenTxReq.provenTxReqId).Nodup) :
    (replaceReq noted vreqs).map TableProvenTxReq.provenTxReqId = vreqs.map TableProvenTxReq.provenTxReqId ∧
      ∀ other ∈ replaceReq noted vreqs, other = noted ∨ (other ∈ vreqs ∧ other.provenTxReqId ≠ noted.provenTxReqId) := by
  induction vreqs with
  | nil => cases found
  | cons first rest ih =>
    obtain ⟨apart, distinct⟩ := nodup_cons.mp distinct
    unfold replaceReq
    rw [find?_cons] at found
    by_cases here : first.txid = txid
    · rw [decide_eq_true here] at found
      cases found
      rw [if_pos (here.trans named.symm)]
      refine ⟨by rw [map_cons, map_cons, same], fun other member => ?_⟩
      rcases mem_cons.mp member with rfl | later
      · exact .inl rfl
      · refine .inr ⟨.tail _ later, fun equal => apart ?_⟩
        exact mem_map.mpr ⟨other, later, equal.trans same⟩
    · rw [decide_eq_false here] at found
      rw [if_neg fun equal => here (equal.trans named)]
      obtain ⟨ids, members⟩ := ih found distinct
      refine ⟨by rw [map_cons, map_cons, ids], fun other member => ?_⟩
      rcases mem_cons.mp member with rfl | later
      · refine .inr ⟨.head _, fun equal => apart ?_⟩
        exact mem_map.mpr ⟨vreq, mem_of_find?_eq_some found, (equal.trans same).symm⟩
      · rcases members other later with rfl | ⟨kept, differs⟩
        · exact .inl rfl
        · exact .inr ⟨.tail _ kept, differs⟩

theorem transferNotes_guarded (pbrs : List PostBeefResult)
    (distinct : (vreqs.map TableProvenTxReq.provenTxReqId).Nodup) (reflect : ∀ vreq ∈ vreqs, Reflects origin past vreq)
    (keyed : RequestsKeyed database.records) :
    (perform hash (transferNotesToReqHistories now pbrs txids vreqs)).Guarded (exec hash) (requestContract origin)
      anyEnd past database := by
  induction txids generalizing past database vreqs with
  | nil => trivial
  | cons txid rest ih =>
    unfold transferNotesToReqHistories
    split
    · trivial
    · next vreq found =>
      have member := mem_of_find?_eq_some found
      have named : vreq.txid = txid := by simpa using find?_some found
      have id := addHistoryNotes_id now vreq (notesOfTxid pbrs txid)
      have noted := (reflect vreq member).within id (addHistoryNotes_spec now (notesOfTxid pbrs txid) vreq).1
      refine update_seq noted keyed (fun count more after updated => ?_) fun _ _ _ _ => trivial
      obtain ⟨ids, members⟩ := replaceReq_spec found ((addHistoryNotes_txid now vreq _).trans named) id distinct
      apply ih
      · rw [ids]
        exact distinct
      · intro other here
        rcases members other here with rfl | ⟨kept, differs⟩
        · exact updated.reflects
        · intro seen last
          have elsewhere : rowKey .provenTxReqs other ≠ rowKey .provenTxReqs (addHistoryNotes now (notesOfTxid pbrs txid) vreq) :=
            fun same => differs (RowKey.id.inj same)
          rw [updated.others _ elsewhere] at last
          exact reflect other kept seen last
      · exact updated.keyed

section
variable (posting : Posting)

theorem confirmDoubleSpend_spec
    (confirms : confirmDoubleSpend now posting aggregate req = .ok (confirmed, noted)) :
    noted.provenTxReqId = req.provenTxReqId ∧ ListsWithin req noted := by
  unfold confirmDoubleSpend at confirms
  obtain ⟨⟨known, properties⟩, -, confirms⟩ := bind_eq_ok.mp confirms
  cases known with
  | true =>
    cases confirms
    exact ⟨addHistoryNote_id now _ false req, addHistoryNote_within now _ req⟩
  | false =>
    obtain ⟨⟨competing, more⟩, -, confirms⟩ := bind_eq_ok.mp confirms
    cases confirms
    exact ⟨addHistoryNote_id now _ false req, addHistoryNote_within now _ req⟩

theorem applyAggregate_spec (status : AggregateStatus) (req : TableProvenTxReq) :
    (applyAggregate status req).provenTxReqId = req.provenTxReqId ∧ ListsWithin req (applyAggregate status req) := by
  cases status <;> exact ⟨rfl, .of_eq rfl rfl⟩

theorem findOutputsByOutpoints_uses (userId : Nat) (outpoints : List Outpoint) : (findOutputsByOutpoints userId outpoints).Uses BesideCall := by
  induction outpoints with
  | nil => trivial
  | cons outpoint rest ih =>
    have one : (findOutputByOutpoint userId outpoint).Uses BesideCall := Program.Uses.bind (await_uses trivial) fun rows => verifyOneOrNone_uses rows
    exact one.bind fun _ => ih.bind fun _ => trivial

theorem loadLockingScript_uses (output : TableOutput) : (loadLockingScript output).Uses BesideCall := by
  unfold loadLockingScript
  split
  · split
    · trivial
    · refine Program.Uses.bind ?_ fun _ => trivial
      refine Program.Uses.bind (await_uses trivial) fun rows => (verifyOneOrNone_uses rows).bind fun found => ?_
      cases found with
      | some proven => trivial
      | none =>
        refine Program.Uses.bind (await_uses rfl) fun rows => (verifyOneOrNone_uses rows).bind fun found => ?_
        cases found <;> trivial
  · trivial

theorem checkInputs_uses (outputs : List (Outpoint × Option TableOutput)) : (checkInputs posting outputs).Uses BesideCall := by
  induction outputs with
  | nil => trivial
  | cons first rest ih =>
    obtain ⟨outpoint, output⟩ := first
    refine Program.Uses.bind ?_ fun _ => ih.bind fun _ => trivial
    cases output with
    | none => trivial
    | some output =>
      have loads : (if output.lockingScript.isNone then loadLockingScript output else pure output).Uses BesideCall := by
        split
        · exact loadLockingScript_uses output
        · trivial
      refine loads.settle.bind fun outcome => ?_
      cases outcome with
      | error error => trivial
      | ok loaded =>
        dsimp only
        split <;> trivial

theorem evictInputs_uses (checks : List InputCheck) : (evictInputs checks).Uses BesideCall := by
  induction checks with
  | nil => trivial
  | cons check rest ih =>
    cases check with
    | skipped => exact ih
    | serviceError | stillUtxo => exact ih.bind fun _ => trivial
    | stale outputId outpoint => exact Program.Uses.bind (await_uses trivial) fun _ => ih.bind fun _ => trivial

theorem markStaleInputsAsSpent_uses (req : TableProvenTxReq) : (markStaleInputsAsSpent posting req).Uses BesideCall := by
  unfold markStaleInputsAsSpent
  split
  · trivial
  · refine Program.Uses.bind (await_uses trivial) fun txs => ?_
    cases txs with
    | nil => trivial
    | cons tx rest =>
      refine (Program.Uses.ofExcept _).bind fun inputs => ?_
      dsimp only
      split
      · trivial
      · exact (findOutputsByOutpoints_uses _ _).bind fun outputs => (checkInputs_uses posting outputs).bind fun checks => evictInputs_uses checks

theorem noteStaleInputs_guarded (status : AggregateStatus) (byId : origin.byTxid = false)
    (reflects : Reflects origin past req) (keyed : RequestsKeyed database.records) :
    (perform hash (noteStaleInputs now posting status req)).Guarded (exec hash) (requestContract origin) anyEnd past database := by
  unfold noteStaleInputs
  refine beside_seq byId (markStaleInputsAsSpent_uses posting req) keyed (fun stale more after leaves => ?_) fun _ _ _ _ => trivial
  dsimp only
  split
  · have noted := (leaves.reflects reflects).within (addHistoryNote_id now (staleInputsNote status stale) false req) (addHistoryNote_within now _ req)
    exact update_seq noted leaves.keyed (fun _ _ _ _ => trivial) fun _ _ _ _ => trivial
  · trivial

theorem updateReqFromAggregateResult_guarded (nested : Bool) (aggregate : AggregatePostBeefTxResult) (byId : origin.byTxid = false)
    (vreq : TableProvenTxReq) :
    (perform hash (updateReqFromAggregateResult now posting nested aggregate vreq)).Guarded (exec hash)
      (requestContract origin) anyEnd past database := by
  unfold updateReqFromAggregateResult
  refine refresh_seq fun read more after keyed reflects => ?_
  split
  · trivial
  · cases confirms : (if aggregate.status = .doubleSpend ∧ nested = false then confirmDoubleSpend now posting aggregate read
        else .ok (aggregate, read)) with
    | error error => trivial
    | ok pair =>
      obtain ⟨confirmed, req⟩ := pair
      have kept : req.provenTxReqId = read.provenTxReqId ∧ ListsWithin read req := by
        split at confirms
        · exact confirmDoubleSpend_spec now posting confirms
        · cases confirms
          exact ⟨rfl, .refl _⟩
      obtain ⟨applied, lists⟩ := applyAggregate_spec confirmed.status req
      have changed := (reflects.within kept.1 kept.2).within applied lists
      have set := changed.within (setStatus_id now confirmed.status.reqStatus _) (setStatus_within now _ _)
      have noted := set.within (addHistoryNote_id now (aggregateResultsNote read aggregate confirmed (applyAggregate confirmed.status req).attempts) false _)
        (addHistoryNote_within now _ _)
      refine update_seq noted keyed (fun count last final updated => ?_) fun _ _ _ _ => trivial
      refine beside_seq byId ((updateTransactionsStatus_uses _ _).mono StatusCall.beside) updated.keyed (fun _ later now' leaves => ?_)
        fun _ _ _ _ => trivial
      dsimp only
      split
      · rw [perform_bind]
        refine Program.Guarded.bind ((noteStaleInputs_guarded now posting _ byId (leaves.reflects updated.reflects) leaves.keyed).mono
          fun _ outcome _ _ => ?_)
        cases outcome with
        | ok _ => trivial
        | error _ => trivial
      · trivial

theorem attemptToPostReqsToNetwork_guarded (nested : Bool) (byId : origin.byTxid = false)
    (looksUp : ∀ req, (posting.mergeReqToBeefToShareExternally req).Uses LooksUpProven)
    (different : (reqs.map TableProvenTxReq.provenTxReqId).Nodup) (reflect : ∀ req ∈ reqs, Reflects origin past req)
    (keyed : RequestsKeyed database.records) :
    (perform hash (attemptToPostReqsToNetwork now posting nested reqs)).Guarded (exec hash) (requestContract origin)
      anyEnd past database := by
  have updates : ∀ (pbrs : List PostBeefResult) (noted : List TableProvenTxReq) (txids : List String) (details : List PostReqsToNetworkDetails)
      (more : List (Event rocksDb)) (after : Database),
      (perform hash (updateReqsFromAggregateResults now posting nested pbrs noted txids details)).Guarded (exec hash)
        (requestContract origin) anyEnd more after := by
    intro pbrs noted txids
    induction txids with
    | nil => exact fun _ _ _ => trivial
    | cons txid rest ih =>
      intro details more after
      unfold updateReqsFromAggregateResults
      split
      · trivial
      · rw [perform_bind]
        refine Program.Guarded.bind ((updateReqFromAggregateResult_guarded now posting nested _ byId _).mono fun last outcome final _ => ?_)
        match outcome with
        | .error error => trivial
        | .ok none => exact ih details last final
        | .ok (some aggregate) => exact ih _ last final
  unfold attemptToPostReqsToNetwork
  rw [perform_bind]
  refine Program.Guarded.bind ((validateReqs_guarded now posting byId looksUp different reflect keyed).mono fun more outcome after validated => ?_)
  cases outcome with
  | error error => trivial
  | ok pair =>
    obtain ⟨details, vreqs⟩ := pair
    have kept := validated _ rfl
    cases posted : posting.postBeef (vreqs.map TableProvenTxReq.txid) with
    | error error =>
      dsimp only
      rw [posted]
      trivial
    | ok pbrs =>
      dsimp only
      rw [posted]
      show (perform hash (transferNotesToReqHistories now pbrs (vreqs.map TableProvenTxReq.txid) vreqs >>= fun noted =>
        updateReqsFromAggregateResults now posting nested pbrs noted (vreqs.map TableProvenTxReq.txid) details)).Guarded _ _ _ _ _
      rw [perform_bind]
      have distinct := different.sublist (kept.kept.map _)
      refine Program.Guarded.bind ((transferNotes_guarded now pbrs distinct kept.reflect kept.keyed).mono fun last outcome final _ => ?_)
      cases outcome with
      | ok noted => exact updates pbrs noted _ details last final
      | error error => trivial

end

end
end WalletToolbox

import WalletToolbox.Provider.ReviewStatus

/-! What a review of storage leaves. Its three passes change transactions and outputs row by
row, so a whole run is three maps; the review does what it should exactly when no stored
proof meets an invalid request or releases what its transaction spends. -/

namespace WalletToolbox
open Async StorageProvider List
open Program (run_await run_bind_of_error run_bind_of_ok run_done run_ofExcept)

namespace StorageIdb

section
variable {stores : ObjectStores} {table other : EntityTable} {f g : Row table → Row table}

theorem change_same : change stores table f table = (stores table).map f := Function.update_self ..

theorem change_other (different : other ≠ table) : change stores table f other = stores other := Function.update_of_ne different ..

theorem change_change : change (change stores table f) table g = change stores table (g ∘ f) := by
  unfold change
  rw [Function.update_self, map_map, Function.update_idem]

theorem change_congr (same : ∀ row ∈ stores table, f row = g row) : change stores table f = change stores table g := by
  unfold change
  rw [map_congr_left same]

theorem change_fixed (same : ∀ row ∈ stores table, f row = row) : change stores table f = stores := by
  have whole := (map_congr_left same).trans (map_id _)
  unfold change
  rw [whole, Function.update_eq_self]

theorem change_comm {h} (different : other ≠ table) :
    change (change stores table f) other h = change (change stores other h) table f := by
  unfold change
  rw [Function.update_of_ne different, Function.update_of_ne different.symm, Function.update_comm different.symm]

structure SoundStores (stores : ObjectStores) : Prop where
  distinct : ∀ table, ((stores table).map (rowKey table)).Nodup
  numbered : ∀ table, ∀ row ∈ stores table, rowKey table row ≠ .id 0

theorem SoundStores.same (sound : SoundStores stores) {row twin} (here : row ∈ stores table) (there : twin ∈ stores table)
    (key : rowKey table row = rowKey table twin) : row = twin := inj_on_of_nodup_map (sound.distinct table) here there key

theorem SoundStores.change (sound : SoundStores stores) (keeps : ∀ row, rowKey table (f row) = rowKey table row) : SoundStores (change stores table f) := by
  have keys : ∀ other, (StorageIdb.change stores table f other).map (rowKey other) = (stores other).map (rowKey other) := by
    intro other
    by_cases same : other = table
    · subst same
      rw [change_same, map_map]
      exact map_congr_left fun row _ => keeps row
    · rw [change_other same]
  refine ⟨fun other => keys other ▸ sound.distinct other, fun other row member zero => ?_⟩
  have listed := mem_map_of_mem (f := rowKey other) member
  rw [keys other] at listed
  obtain ⟨was, there, key⟩ := mem_map.mp listed
  exact sound.numbered other was there (key.trans zero)

theorem SoundStores.filter_one (sound : SoundStores stores) {row accepts} (here : row ∈ stores table)
    (only : ∀ twin ∈ stores table, accepts twin = true ↔ rowKey table twin = rowKey table row) : (stores table).filter accepts = [row] := by
  have nodup := List.Nodup.of_map _ (sound.distinct table)
  have members : ∀ twin, twin ∈ (stores table).filter accepts ↔ twin ∈ [row] := by
    intro twin
    rw [mem_filter, mem_singleton]
    constructor
    · rintro ⟨member, accepted⟩
      exact sound.same member here ((only twin member).mp accepted)
    · rintro rfl
      exact ⟨here, (only _ here).mpr rfl⟩
  exact perm_singleton.mp ((perm_ext_iff_of_nodup (nodup.filter _) (nodup_singleton row)).mpr members)

end

end StorageIdb

namespace ReviewStatus
open StorageIdb

section
variable {hash : ScriptHash} {others : Machine storage ObjectStores} {stores : ObjectStores}

theorem find_run (table : EntityTable) (args : FindArgs table) :
    (StorageCall.find table args).await.run (callAlone hash others) stores = (.ok (find stores table args), stores) := by
  rw [StorageCall.await, run_await, run_ofExcept]
  rfl

theorem update_run (table : EntityTable) (key : UpdateKey table) (changes : Update table) : ∃ count,
    (StorageCall.update table key changes).await.run (callAlone hash others) stores =
      (.ok count, put stores table (UpdateKey.row table key) (updatedRow hash table changes)) := by
  rw [StorageCall.await, run_await, run_ofExcept]
  exact ⟨_, rfl⟩

def release (o : TableOutput) : TableOutput := { o with spendable := true, spentBy := none }

def releaseIf (spent : TableOutput → Bool) (o : TableOutput) : TableOutput := if spent o then release o else o

theorem releaseIf_congr (same : first o = second o) : releaseIf first o = releaseIf second o := by
  unfold releaseIf
  rw [same]

theorem releaseIf_comp (first second : TableOutput → Bool) : releaseIf second ∘ releaseIf first = releaseIf fun o => first o || second o := by
  funext o
  show releaseIf second (releaseIf first o) = _
  unfold releaseIf
  have twice : release (release o) = release o := rfl
  by_cases earlier : first o = true
  · simp [earlier, twice]
  · simp [earlier]

theorem release_update (id : Nat) : put stores .outputs (.id id) (updatedRow hash .outputs { spendable := some true, spentBy := some none }) =
    change stores .outputs (releaseIf fun o => o.outputId = id) := by
  apply change_congr
  intro o _
  simp [releaseIf, rowKey, updatedRow, release, OutputUpdate.applyScriptMetadata, OutputUpdate.spread]

theorem verifyId_run {id} (positive : id ≠ 0) : (verifyId id : StorageM Nat).run (callAlone hash others) stores = (.ok id, stores) := by
  unfold verifyId
  rw [if_neg (by omega)]
  rfl

theorem releaseInputs_run (inputs : List TableOutput) (positive : ∀ input ∈ inputs, input.outputId ≠ 0) :
    (StorageProvider.releaseInputs inputs).run (callAlone hash others) stores =
      (.ok (), change stores .outputs (releaseIf fun o => inputs.any (·.outputId = o.outputId))) := by
  induction inputs generalizing stores with
  | nil =>
    rw [change_fixed fun o _ => by simp [releaseIf]]
    rfl
  | cons input rest ih =>
    have released := @update_run hash others stores .outputs input.outputId { spendable := some true, spentBy := some none }
    obtain ⟨count, released⟩ := released
    have key : UpdateKey.row .outputs input.outputId = .id input.outputId := rfl
    rw [key, release_update] at released
    unfold StorageProvider.releaseInputs
    rw [run_bind_of_ok (verifyId_run (positive input (.head _))), run_bind_of_ok released,
      ih fun later member => positive later (.tail _ member), change_change]
    have joint : (fun o : TableOutput => decide (o.outputId = input.outputId) || rest.any (·.outputId = o.outputId)) =
        fun o => (input :: rest).any (·.outputId = o.outputId) := by
      funext o
      rw [any_cons, Bool.decide_congr (eq_comm (a := o.outputId))]
    rw [releaseIf_comp, joint]

def spentIn (t : TableTransaction) (o : TableOutput) : Bool := o.userId = t.userId ∧ o.spentBy = some t.transactionId

def failWhen (which : TableTransaction → Bool) (t : TableTransaction) : TableTransaction := if which t then { t with status := .failed } else t

def Failable (t : TableTransaction) : Prop := t.status = .failed ∨ (t.status ≠ .completed ∧ truthyId t.provenTxId = none)

theorem validateOutputScript_id (o : TableOutput) : (validateOutputScript stores o).outputId = o.outputId := by
  unfold validateOutputScript
  split
  · split <;> rfl
  · rfl

theorem prepareStatus_run (sound : SoundStores stores) (t : TableTransaction) :
    (prepareStatus .failed t).run (callAlone hash others) stores = (.ok (), change stores .outputs (releaseIf (spentIn t))) := by
  have accepts (o : TableOutput) : matchesOutputPartial o { userId := t.userId, spentBy := t.transactionId } = spentIn t o := by
    simp [matchesOutputPartial, spentIn, eq, eqOptional, eq_comm]
  have found : find stores .outputs { wanted := { userId := t.userId, spentBy := t.transactionId } } =
      ((stores .outputs).filter (spentIn t)).map (validateOutputScript stores) := by
    simp [find, findOutputs, accepts]
  have positive : ∀ input ∈ find stores .outputs { wanted := { userId := t.userId, spentBy := t.transactionId } }, input.outputId ≠ 0 := by
    rw [found]
    intro input member zero
    obtain ⟨o, here, rfl⟩ := mem_map.mp member
    rw [validateOutputScript_id] at zero
    exact sound.numbered .outputs o (mem_filter.mp here).1 (congrArg RowKey.id zero)
  have looked : (getInputs t).run (callAlone hash others) stores = (.ok _, stores) := find_run .outputs _
  unfold prepareStatus
  rw [run_bind_of_ok looked, releaseInputs_run _ positive]
  refine Prod.ext rfl (change_congr fun o here => ?_)
  have same : ((find stores .outputs { wanted := { userId := t.userId, spentBy := t.transactionId } }).any (·.outputId = o.outputId)) = spentIn t o := by
    rw [found, any_map, any_filter, Bool.eq_iff_iff, any_eq_true]
    constructor
    · rintro ⟨twin, there, both⟩
      simp only [Function.comp, validateOutputScript_id, Bool.and_eq_true, decide_eq_true_eq] at both
      have is : twin = o := @SoundStores.same stores .outputs sound twin o there here (congrArg RowKey.id both.2)
      exact is ▸ both.1
    · intro spent
      refine ⟨o, here, ?_⟩
      simp [validateOutputScript_id, spent]
  exact releaseIf_congr same

def stripped (t : TableTransaction) : TableTransaction := { t with rawTx := none, inputBEEF := none }

theorem find_transaction (sound : SoundStores stores) (here : t ∈ stores .transactions) :
    find stores .transactions { wanted := { transactionId := t.transactionId }, noRawTx := true } = [stripped t] := by
  have accepts (other : TableTransaction) : matchesTransactionPartial other { transactionId := some t.transactionId } = true ↔
      rowKey .transactions other = rowKey .transactions t := by
    simp [matchesTransactionPartial, eq, eqOptional, rowKey, eq_comm]
  have one := @SoundStores.filter_one stores .transactions sound t _ here fun other _ => accepts other
  simp [find, findTransactions, one, stripped]

theorem guardStatus_failed (t : TableTransaction) (unfailed : t.status ≠ .failed) :
    (Failable t → guardStatus .failed t = .ok ()) ∧ (¬ Failable t → ∃ error, guardStatus .failed t = .error error) := by
  unfold guardStatus
  constructor
  · intro failable
    obtain failed | ⟨incomplete, unlinked⟩ := failable
    · exact (unfailed failed).elim
    · simp [incomplete, unlinked]
  · intro stuck
    have final : t.status = .completed ∨ truthyId t.provenTxId ≠ none := by
      by_contra neither
      push Not at neither
      exact stuck (.inr neither)
    refine ⟨_, if_pos ?_⟩
    simpa using final

theorem updateTransactionStatus_run (sound : SoundStores stores) {t} (here : t ∈ stores .transactions) (unfailed : t.status ≠ .failed) :
    (Failable t → (updateTransactionStatus .failed (some t.transactionId) none none).run (callAlone hash others) stores =
      (.ok (), change (change stores .outputs (releaseIf (spentIn t))) .transactions (failWhen fun other => other.transactionId = t.transactionId))) ∧
    (¬ Failable t → ∃ error, (updateTransactionStatus .failed (some t.transactionId) none none).run (callAlone hash others) stores =
      (.error error, stores)) := by
  have positive : t.transactionId ≠ 0 := fun zero => sound.numbered .transactions t here (congrArg RowKey.id zero)
  have named : truthyId (some t.transactionId) = some t.transactionId := by simp [truthyId, positive]
  have looked : (StorageCall.find .transactions
      { wanted := { transactionId := truthyId (some t.transactionId), userId := truthyId none, reference := truthyText none }, noRawTx := true }).await.run
      (callAlone hash others) stores = (.ok [stripped t], stores) := by
    rw [find_run, named]
    exact congrArg (fun found => (Except.ok found, stores)) (find_transaction sound here)
  have one : (verifyOne [stripped t] : StorageM _).run (callAlone hash others) stores = (.ok (stripped t), stores) := rfl
  obtain ⟨may, mayNot⟩ := guardStatus_failed (stripped t) unfailed
  unfold updateTransactionStatus
  rw [if_neg (by simp [named]), run_bind_of_ok looked, run_bind_of_ok one]
  constructor
  · intro failable
    rw [may failable]
    show (prepareStatus .failed (stripped t) >>= fun _ => _).run _ _ = _
    rw [run_bind_of_ok (prepareStatus_run sound (stripped t))]
    obtain ⟨count, updated⟩ := @update_run hash others (change stores .outputs (releaseIf (spentIn (stripped t)))) .transactions t.transactionId { status := some .failed }
    have done : (StorageCall.update .transactions (stripped t).transactionId { status := some .failed }).await.run (callAlone hash others)
        (change stores .outputs (releaseIf (spentIn (stripped t)))) = _ := updated
    rw [run_bind_of_ok done]
    refine Prod.ext rfl (change_congr fun other _ => ?_)
    simp [failWhen, rowKey, UpdateKey.row, updatedRow, TransactionUpdate.spread]
  · intro stuck
    obtain ⟨error, refused⟩ := mayNot stuck
    rw [refused]
    exact ⟨error, rfl⟩

def failed (stores : ObjectStores) (which : TableTransaction → Bool) : ObjectStores :=
  change (change stores .outputs (releaseIf fun o => (stores .transactions).any fun t => which t && t.status ≠ .failed && spentIn t o))
    .transactions (failWhen which)

theorem failWhen_id (which : TableTransaction → Bool) (t : TableTransaction) : (failWhen which t).transactionId = t.transactionId := by
  unfold failWhen
  split <;> rfl

theorem failWhen_txid (which : TableTransaction → Bool) (t : TableTransaction) : (failWhen which t).txid = t.txid := by
  unfold failWhen
  split <;> rfl

theorem failed_transactions (which : TableTransaction → Bool) : failed stores which .transactions = (stores .transactions).map (failWhen which) := by
  unfold failed
  rw [change_same, change_other (by simp)]

theorem releaseIf_id (spent : TableOutput → Bool) (o : TableOutput) : (releaseIf spent o).outputId = o.outputId := by
  unfold releaseIf
  split <;> rfl

theorem failed_sound (sound : SoundStores stores) (which : TableTransaction → Bool) : SoundStores (failed stores which) :=
  (@SoundStores.change stores .outputs _ sound fun o => congrArg RowKey.id (releaseIf_id _ o)).change fun t => congrArg RowKey.id (failWhen_id which t)

theorem failed_congr {which other} (same : ∀ t ∈ stores .transactions, t.status = .failed ∨ which t = other t) :
    failed stores which = failed stores other := by
  have spent : (fun o => (stores .transactions).any fun t => which t && t.status ≠ .failed && spentIn t o) =
      fun o => (stores .transactions).any fun t => other t && t.status ≠ .failed && spentIn t o := by
    funext o
    rw [Bool.eq_iff_iff, any_eq_true, any_eq_true]
    refine exists_congr fun t => and_congr_right fun here => ?_
    rcases same t here with already | same
    · simp [already]
    · rw [same]
  unfold failed
  rw [spent]
  apply change_congr
  intro t here
  rw [change_other (by simp)] at here
  rcases same t here with already | same
  · have kept : { t with status := TransactionStatus.failed } = t := by rw [← already]
    unfold failWhen
    simp [kept]
  · unfold failWhen
    rw [same]

theorem failed_none (none : ∀ t ∈ stores .transactions, t.status = .failed ∨ which t = false) : failed stores which = stores := by
  have unreleased : change stores .outputs (releaseIf fun o => (stores .transactions).any fun t => false && t.status ≠ .failed && spentIn t o) = stores :=
    change_fixed fun o _ => by simp [releaseIf]
  rw [@failed_congr stores which (fun _ => false) none, failed, unreleased]
  exact change_fixed fun t _ => rfl

/-- One more transaction is failed. -/
theorem failed_step (sound : SoundStores stores) (which : TableTransaction → Bool) (here : t ∈ stores .transactions) (unfailed : t.status ≠ .failed) :
    change (change (failed stores which) .outputs (releaseIf (spentIn t))) .transactions (failWhen fun other => other.transactionId = t.transactionId) =
      failed stores fun other => which other || decide (other = t) := by
  have spent : (fun o => ((stores .transactions).any fun t => which t && t.status ≠ .failed && spentIn t o) || spentIn t o) =
      fun o => (stores .transactions).any fun other => (which other || decide (other = t)) && other.status ≠ .failed && spentIn other o := by
    funext o
    rw [Bool.eq_iff_iff, Bool.or_eq_true, any_eq_true, any_eq_true]
    constructor
    · rintro (⟨other, member, holds⟩ | spends)
      · simp only [Bool.and_eq_true] at holds
        exact ⟨other, member, by simp [holds]⟩
      · exact ⟨t, here, by simp [unfailed, spends]⟩
    · rintro ⟨other, member, holds⟩
      simp only [Bool.and_eq_true, Bool.or_eq_true, decide_eq_true_eq] at holds
      rcases holds with ⟨⟨already | rfl, unfailed⟩, spends⟩
      · exact .inl ⟨other, member, by simp [already, unfailed, spends]⟩
      · exact .inr spends
  unfold failed
  rw [@change_comm _ .transactions .outputs _ _ (by simp), change_change, change_change, releaseIf_comp, spent]
  apply change_congr
  intro other member
  rw [change_other (by simp)] at member
  have only : other.transactionId = t.transactionId ↔ other = t :=
    ⟨fun same => @SoundStores.same stores .transactions sound other t member here (congrArg RowKey.id same), fun same => by rw [same]⟩
  show failWhen _ (failWhen which other) = _
  unfold failWhen
  by_cases already : which other = true
  · simp [already]
  · simp [already, only]

theorem failed_skip (which : TableTransaction → Bool) (done : which t = true ∨ t.status = .failed) :
    failed stores (fun other => which other || decide (other = t)) = failed stores which := by
  apply failed_congr
  intro other _
  by_cases same : other = t
  · subst same
    rcases done with already | status
    · exact .inr (by simp [already])
    · exact .inl status
  · exact .inr (by simp [same])

theorem failWhen_status (which : TableTransaction → Bool) (t : TableTransaction) :
    (failWhen which t).status = .failed ↔ which t = true ∨ t.status = .failed := by
  unfold failWhen
  by_cases already : which t = true
  · simp [already]
  · simp [already]

theorem failEach_step (sound : SoundStores stores) (which : TableTransaction → Bool) {t row} (here : t ∈ stores .transactions)
    (id : row.transactionId = t.transactionId) (status : row.status = (failWhen which t).status) (rest : List TableTransaction) :
    (Failable t → ∃ wrap : String → String, (failEach (row :: rest)).run (callAlone hash others) (failed stores which) =
      (((failEach rest).run (callAlone hash others) (failed stores fun other => which other || decide (other = t))).1.map wrap,
        ((failEach rest).run (callAlone hash others) (failed stores fun other => which other || decide (other = t))).2)) ∧
    (¬ Failable t → which t = false → ∃ error after, (failEach (row :: rest)).run (callAlone hash others) (failed stores which) = (.error error, after)) := by
  have unfolded : failEach (row :: rest) = if row.status = .failed then failEach rest else do
      updateTransactionStatus .failed (some row.transactionId) none none
      let log ← failEach rest
      return failedLog row ++ log := rfl
  rw [unfolded]
  by_cases already : row.status = .failed
  · have done := (failWhen_status which t).mp (status ▸ already)
    rw [if_pos already, failed_skip which done]
    refine ⟨fun _ => ⟨fun log => log, Prod.ext ?_ rfl⟩, fun stuck unmet => ?_⟩
    · exact (id_map ((failEach rest).run (callAlone hash others) (failed stores which)).1).symm
    · rcases done with met | failed
      · rw [unmet] at met
        cases met
      · exact (stuck (.inl failed)).elim
  · have fresh : ¬ (which t = true ∨ t.status = .failed) := fun done => already (status ▸ (failWhen_status which t).mpr done)
    have unmet : which t = false := by simpa using fun met => fresh (.inl met)
    have unfailed : t.status ≠ .failed := fun failed => fresh (.inr failed)
    have now : t ∈ failed stores which .transactions := by
      rw [failed_transactions]
      exact mem_map.mpr ⟨t, here, by simp [failWhen, unmet]⟩
    obtain ⟨fails, refused⟩ := @updateTransactionStatus_run hash others _ (failed_sound sound which) t now unfailed
    rw [if_neg already, id]
    refine ⟨fun failable => ?_, fun stuck _ => ?_⟩
    · rw [run_bind_of_ok ((fails failable).trans (congrArg _ (failed_step sound which here unfailed))), Program.run_bind]
      refine ⟨fun log => failedLog row ++ log, ?_⟩
      cases (failEach rest).run (callAlone hash others) (failed stores fun other => which other || decide (other = t)) with
      | mk outcome after => cases outcome <;> rfl
    · obtain ⟨error, refused⟩ := refused stuck
      exact ⟨error, _, run_bind_of_error refused⟩

theorem failEach_run (sound : SoundStores stores) (which : TableTransaction → Bool) (read : TableTransaction → TableTransaction) (ts : List TableTransaction)
    (inside : ∀ t ∈ ts, t ∈ stores .transactions) (distinct : ts.Nodup) (ids : ∀ t ∈ ts, (read t).transactionId = t.transactionId)
    (statuses : ∀ t ∈ ts, (read t).status = (failWhen which t).status) :
    ((∀ t ∈ ts, Failable t) → ∃ log, (failEach (ts.map read)).run (callAlone hash others) (failed stores which) =
      (.ok log, failed stores fun t => which t || ts.contains t)) ∧
    ((∀ t ∈ stores .transactions, which t = true → Failable t) → (∃ t ∈ ts, ¬ Failable t) → ∃ error after, (failEach (ts.map read)).run (callAlone hash others) (failed stores which) = (.error error, after)) := by
  induction ts generalizing which with
  | nil =>
    refine ⟨fun _ => ⟨"", ?_⟩, fun _ ⟨t, member, _⟩ => by cases member⟩
    rw [failed_congr fun t _ => .inr (Bool.or_false (which t)).symm]
    rfl
  | cons t rest ih =>
    have apart := nodup_cons.mp distinct
    have later := ih (fun other => which other || decide (other = t)) (fun other member => inside other (.tail _ member)) apart.2
      (fun other member => ids other (.tail _ member)) fun other member => by
        rw [statuses other (.tail _ member)]
        have different : other ≠ t := fun same => apart.1 (same ▸ member)
        simp [failWhen, different]
    obtain ⟨steps, stops⟩ := @failEach_step hash others stores sound which t (read t) (inside t (.head _)) (ids t (.head _)) (statuses t (.head _)) (rest.map read)
    rw [map_cons]
    constructor
    · intro failable
      obtain ⟨wrap, ran⟩ := steps (failable t (.head _))
      obtain ⟨log, finished⟩ := later.1 fun other member => failable other (.tail _ member)
      refine ⟨wrap log, ran.trans ?_⟩
      rw [finished]
      refine Prod.ext rfl (failed_congr fun other _ => .inr ?_)
      rw [contains_cons, Bool.or_assoc]
      rfl
    · rintro met ⟨bad, member, stuck⟩
      by_cases first : Failable t
      · obtain ⟨wrap, ran⟩ := steps first
        rcases mem_cons.mp member with rfl | member
        · exact (stuck first).elim
        · have all : ∀ other ∈ stores .transactions, (which other || decide (other = t)) = true → Failable other := by
            intro other there holds
            rcases Bool.or_eq_true_iff.mp holds with already | same
            · exact met other there already
            · exact of_decide_eq_true same ▸ first
          obtain ⟨error, after, finished⟩ := later.2 all ⟨bad, member, stuck⟩
          rw [finished] at ran
          exact ⟨error, after, ran⟩
      · have unmet : which t = false := by simpa using fun holds => first (met t (inside t (.head _)) holds)
        exact stops first unmet

theorem validateRawTransaction_keeps (t : TableTransaction) : (validateRawTransaction stores t).transactionId = t.transactionId ∧
    (validateRawTransaction stores t).status = t.status := by
  unfold validateRawTransaction
  split <;> exact ⟨rfl, rfl⟩

def named (txids : List String) (t : TableTransaction) : Bool := t.txid.any (txids.contains ·)

theorem named_cons (txid : String) (txids : List String) (t : TableTransaction) :
    named (txid :: txids) t = (decide (t.txid = some txid) || named txids t) := by
  unfold named
  cases t.txid with
  | none => rfl
  | some other => simp

theorem find_named (which : TableTransaction → Bool) (txid : String) : ∃ read : TableTransaction → TableTransaction,
    (∀ t, (read t).transactionId = t.transactionId ∧ (read t).status = (failWhen which t).status) ∧
      find (failed stores which) .transactions { wanted := { txid } } = ((stores .transactions).filter (·.txid = some txid)).map read := by
  have accepts (t : TableTransaction) : matchesTransactionPartial t { txid := some txid } = decide (t.txid = some txid) := by
    simp [matchesTransactionPartial, eq, eqOptional, eq_comm]
  refine ⟨fun t => validateRawTransaction (failed stores which) (failWhen which t), fun t => ?_, ?_⟩
  · obtain ⟨id, status⟩ := @validateRawTransaction_keeps (failed stores which) (failWhen which t)
    exact ⟨id.trans (failWhen_id which t), status⟩
  · simp only [find, findTransactions, failed_transactions, accepts]
    simp [filter_map, Function.comp_def, failWhen_txid]

theorem failInvalid_run (sound : SoundStores stores) (which : TableTransaction → Bool) (txids : List String) :
    ((∀ t ∈ stores .transactions, named txids t = true → Failable t) → ∃ log, (failInvalid txids).run (callAlone hash others) (failed stores which) =
      (.ok log, failed stores fun t => which t || named txids t)) ∧
    ((∀ t ∈ stores .transactions, which t = true → Failable t) → (∃ t ∈ stores .transactions, named txids t = true ∧ ¬ Failable t) →
      ∃ error after, (failInvalid txids).run (callAlone hash others) (failed stores which) = (.error error, after)) := by
  induction txids generalizing which with
  | nil =>
    have same : ∀ t : TableTransaction, named [] t = false := by
      intro t
      cases is : t.txid <;> simp [named, is]
    constructor
    · intro _
      refine ⟨"", Prod.ext rfl (failed_congr fun t _ => .inr ?_)⟩
      rw [same, Bool.or_false]
    · rintro _ ⟨t, _, is, _⟩
      rw [same] at is
      cases is
  | cons txid rest ih =>
    obtain ⟨read, reads, found⟩ := @find_named stores which txid
    have members (t : TableTransaction) : t ∈ (stores .transactions).filter (·.txid = some txid) ↔ t ∈ stores .transactions ∧ t.txid = some txid := by
      simp [mem_filter]
    have distinct : ((stores .transactions).filter (·.txid = some txid)).Nodup := (List.Nodup.of_map _ (sound.distinct .transactions)).filter _
    obtain ⟨fails, stops⟩ := @failEach_run hash others stores sound which read _ (fun t member => ((members t).mp member).1) distinct
      (fun t _ => (reads t).1) (fun t _ => (reads t).2)
    have looked : (StorageCall.find .transactions { wanted := { txid } }).await.run (callAlone hash others) (failed stores which) =
        (.ok (((stores .transactions).filter (·.txid = some txid)).map read), failed stores which) := by
      rw [find_run, found]
    have unfolded : failInvalid (txid :: rest) = (StorageCall.find .transactions { wanted := { txid } }).await >>= fun txs =>
      failEach txs >>= fun first => failInvalid rest >>= fun log => .done (first ++ log) := rfl
    rw [unfolded, run_bind_of_ok looked]
    by_cases all : ∀ t ∈ (stores .transactions).filter (·.txid = some txid), Failable t
    · obtain ⟨first, ran⟩ := fails all
      have same : failed stores (fun t => which t || ((stores .transactions).filter (·.txid = some txid)).contains t) =
          failed stores fun t => which t || decide (t.txid = some txid) := by
        refine failed_congr fun t here => .inr ?_
        rw [contains_eq_mem, decide_eq_decide.mpr ((members t).trans (and_iff_right here))]
      rw [same] at ran
      obtain ⟨passes, fallsDown⟩ := ih fun t => which t || decide (t.txid = some txid)
      rw [run_bind_of_ok ran]
      constructor
      · intro failable
        obtain ⟨log, finished⟩ := passes fun t here is => failable t here (by rw [named_cons, is, Bool.or_true])
        rw [run_bind_of_ok finished]
        refine ⟨first ++ log, Prod.ext rfl (failed_congr fun t _ => .inr ?_)⟩
        rw [named_cons, Bool.or_assoc]
      · rintro met ⟨bad, here, is, stuck⟩
        have later : named rest bad = true := by
          rw [named_cons] at is
          rcases Bool.or_eq_true_iff.mp is with now | later
          · exact (stuck (all bad ((members bad).mpr ⟨here, of_decide_eq_true now⟩))).elim
          · exact later
        have more : ∀ t ∈ stores .transactions, (which t || decide (t.txid = some txid)) = true → Failable t := by
          intro t there holds
          rcases Bool.or_eq_true_iff.mp holds with already | same
          · exact met t there already
          · exact all t ((members t).mpr ⟨there, of_decide_eq_true same⟩)
        obtain ⟨error, after, finished⟩ := fallsDown more ⟨bad, here, later, stuck⟩
        exact ⟨error, after, run_bind_of_error finished⟩
    · push Not at all
      refine ⟨fun failable => ?_, fun met _ => ?_⟩
      · obtain ⟨bad, member, stuck⟩ := all
        obtain ⟨here, is⟩ := (members bad).mp member
        exact (stuck (failable bad here (by rw [named_cons, decide_eq_true is, Bool.true_or]))).elim
      · obtain ⟨error, after, ran⟩ := stops met all
        exact ⟨error, after, run_bind_of_error ran⟩

theorem restoreEach_run (id : Nat) (outputs : List TableOutput) : ∃ log, (restoreEach id outputs).run (callAlone hash others) stores =
    (.ok log, change stores .outputs (releaseIf fun o => outputs.any fun output => output.spentBy = some id && output.outputId = o.outputId)) := by
  induction outputs generalizing stores with
  | nil => exact ⟨"", by rw [change_fixed fun o _ => by simp [releaseIf]]; rfl⟩
  | cons output rest ih =>
    have unfolded : restoreEach id (output :: rest) = if output.spentBy ≠ some id then restoreEach id rest else
      (StorageCall.update .outputs output.outputId { spendable := some true, spentBy := some none }).await >>= fun _ =>
        restoreEach id rest >>= fun log => .done (restoredLog output.outputId id ++ log) := rfl
    rw [unfolded]
    by_cases spends : output.spentBy = some id
    · have released := @update_run hash others stores .outputs output.outputId { spendable := some true, spentBy := some none }
      obtain ⟨count, released⟩ := released
      have key : UpdateKey.row .outputs output.outputId = .id output.outputId := rfl
      rw [key, release_update] at released
      obtain ⟨log, finished⟩ := @ih (change stores .outputs (releaseIf fun o => o.outputId = output.outputId))
      rw [if_neg (by simp [spends]), run_bind_of_ok released, run_bind_of_ok finished]
      refine ⟨restoredLog output.outputId id ++ log, Prod.ext rfl ?_⟩
      rw [run_done, change_change, releaseIf_comp]
      refine change_congr fun o _ => releaseIf_congr ?_
      simp [any_cons, spends, eq_comm]
    · obtain ⟨log, finished⟩ := @ih stores
      rw [if_pos spends, finished]
      refine ⟨log, Prod.ext rfl (change_congr fun o _ => releaseIf_congr ?_)⟩
      rw [any_cons, decide_eq_false spends, Bool.false_and, Bool.false_or]

def Restorable (stores : ObjectStores) (t : TableTransaction) : Prop :=
  t.txid ≠ none ∧ ∀ req ∈ stores .provenTxReqs, t.txid = some req.txid → req.status ∈ provenTxReqStatusesSafeForInputRestore

instance (t : TableTransaction) : Decidable (Restorable stores t) := inferInstanceAs (Decidable (_ ∧ _))

theorem restorable_change (different : .provenTxReqs ≠ table) (t : TableTransaction) :
    Restorable (change stores table g) t ↔ Restorable stores t := by
  unfold Restorable
  rw [change_other different]

theorem restoreInputs_run (sound : SoundStores stores) (t : TableTransaction) {txid} (txid_eq : t.txid = some txid) : ∃ log,
    (restoreInputs t.transactionId txid).run (callAlone hash others) stores =
      (.ok log, change stores .outputs (releaseIf fun o => decide (Restorable stores t) && o.spentBy = some t.transactionId)) := by
  have requests : find stores .provenTxReqs { txid } = (stores .provenTxReqs).filter (·.txid = txid) := by
    have accepts (req : TableProvenTxReq) : matchesProvenTxReqPartial req { txid := some txid } = decide (req.txid = txid) := by
      simp [matchesProvenTxReqPartial, eq, eq_comm]
    simp [find, accepts]
  have restorable : (find stores .provenTxReqs { txid }).any (fun req => req.status ∉ provenTxReqStatusesSafeForInputRestore) = !decide (Restorable stores t) := by
    rw [requests, Bool.eq_iff_iff, any_filter, any_eq_true, Bool.not_eq_true', decide_eq_false_iff_not]
    constructor
    · rintro ⟨req, here, live⟩ ⟨_, safe⟩
      simp only [Bool.and_eq_true, decide_eq_true_eq] at live
      exact live.2 (safe req here (txid_eq.trans (congrArg some live.1.symm)))
    · intro stuck
      by_contra nothing
      refine stuck ⟨by simp [txid_eq], fun req here same => ?_⟩
      by_contra bad
      have is := Option.some.inj (same.symm.trans txid_eq)
      exact nothing ⟨req, here, by simp [is, bad]⟩
  unfold restoreInputs
  rw [run_bind_of_ok (find_run .provenTxReqs _), restorable]
  by_cases may : Restorable stores t
  · have read : find stores .outputs { wanted := {}, noScript := true } = (stores .outputs).map fun o => { o with lockingScript := none } := by
      simp [find, findOutputs, matchesOutputPartial, eq, eqOptional]
    obtain ⟨log, finished⟩ := @restoreEach_run hash others stores t.transactionId (find stores .outputs { wanted := {}, noScript := true })
    simp only [may, decide_true, Bool.not_true, Bool.false_eq_true, if_false, Bool.true_and]
    rw [run_bind_of_ok (find_run .outputs _), finished]
    refine ⟨log, Prod.ext rfl (change_congr fun o here => releaseIf_congr ?_)⟩
    rw [read, any_map, Bool.eq_iff_iff, any_eq_true, decide_eq_true_eq]
    constructor
    · rintro ⟨twin, there, both⟩
      simp only [Function.comp, Bool.and_eq_true, decide_eq_true_eq] at both
      have is := @SoundStores.same stores .outputs sound twin o there here (congrArg RowKey.id both.2)
      exact is ▸ both.1
    · intro spends
      exact ⟨o, here, by simp [spends]⟩
  · refine ⟨"", ?_⟩
    simp only [may, decide_false, Bool.not_false, if_true, Bool.false_and]
    rw [change_fixed fun o _ => by simp [releaseIf]]
    rfl

def restored (stores : ObjectStores) (ts : List TableTransaction) : ObjectStores :=
  change stores .outputs (releaseIf fun o => ts.any fun t => decide (Restorable stores t) && o.spentBy = some t.transactionId)

theorem restoreFailed_run (sound : SoundStores stores) (ts : List TableTransaction) : ∃ log,
    (restoreFailed ts).run (callAlone hash others) stores = (.ok log, restored stores ts) := by
  induction ts generalizing stores with
  | nil => exact ⟨"", by rw [restored, change_fixed fun o _ => by simp [releaseIf]]; rfl⟩
  | cons t rest ih =>
    cases is : t.txid with
    | none =>
      have unfolded : restoreFailed (t :: rest) = restoreFailed rest := by simp [restoreFailed, is]
      have unrestorable : ¬ Restorable stores t := fun ⟨named, _⟩ => named is
      obtain ⟨log, finished⟩ := ih sound
      rw [unfolded, finished]
      refine ⟨log, Prod.ext rfl (change_congr fun o _ => releaseIf_congr ?_)⟩
      rw [any_cons, decide_eq_false unrestorable, Bool.false_and, Bool.false_or]
    | some txid =>
      have unfolded : restoreFailed (t :: rest) = restoreInputs t.transactionId txid >>= fun first =>
          restoreFailed rest >>= fun log => .done (first ++ log) := by simp [restoreFailed, is]
      obtain ⟨first, ran⟩ := @restoreInputs_run hash others stores sound t txid is
      obtain ⟨log, finished⟩ := ih (@SoundStores.change stores .outputs _ sound fun o => congrArg RowKey.id
        (releaseIf_id (fun o => decide (Restorable stores t) && o.spentBy = some t.transactionId) o))
      rw [unfolded, run_bind_of_ok ran, run_bind_of_ok finished]
      refine ⟨first ++ log, Prod.ext rfl ?_⟩
      rw [run_done, restored, change_change, releaseIf_comp]
      refine change_congr fun o _ => releaseIf_congr ?_
      rw [any_cons]
      refine congrArg (or _) (congrArg (any rest) (funext fun other => ?_))
      rw [decide_eq_decide.mpr (restorable_change (by simp) other)]

def unlinkedProof (stores : ObjectStores) (t : TableTransaction) : Option TableProvenTx :=
  if t.provenTxId = none then t.txid.bind fun txid => (stores .provenTxs).find? (·.txid = txid) else none

def complete (stores : ObjectStores) (t : TableTransaction) : TableTransaction :=
  match unlinkedProof stores t with
  | some ptx => { t with status := .completed, provenTxId := some ptx.provenTxId }
  | none => t

theorem complete_id (t : TableTransaction) : (complete stores t).transactionId = t.transactionId := by
  unfold complete
  split <;> rfl

theorem complete_none (unproven : unlinkedProof stores t = none) : complete stores t = t := by
  unfold complete
  rw [unproven]

theorem complete_some (proven : unlinkedProof stores t = some ptx) :
    complete stores t = { t with status := .completed, provenTxId := some ptx.provenTxId } := by
  unfold complete
  rw [proven]

theorem complete_change {table g} (different : .provenTxs ≠ table) (t : TableTransaction) :
    complete (change stores table g) t = complete stores t := by
  unfold complete unlinkedProof
  rw [change_other different]

theorem unlinkedProof_complete (t : TableTransaction) : unlinkedProof stores (complete stores t) = none := by
  cases proven : unlinkedProof stores t with
  | none => rw [complete_none proven, proven]
  | some ptx => rw [complete_some proven, unlinkedProof, if_neg (by simp)]

theorem complete_complete (t : TableTransaction) : complete stores (complete stores t) = complete stores t := complete_none (unlinkedProof_complete t)

theorem complete_step (sound : SoundStores stores) {t} (here : t ∈ stores .transactions) {txid} (is : t.txid = some txid)
    (unlinked : t.provenTxId = none) : ∃ log, (completeOne t.transactionId txid).run (callAlone hash others) stores =
      (.ok log, change stores .transactions fun row => if row.transactionId = t.transactionId then complete stores row else row) := by
  have proofs : find stores .provenTxs { txid } = (stores .provenTxs).filter (·.txid = txid) := by
    have accepts (ptx : TableProvenTx) : matchesProvenTxPartial ptx { txid := some txid } = decide (ptx.txid = txid) := by
      simp [matchesProvenTxPartial, eq, eq_comm]
    simp [find, accepts]
  have only {row : TableTransaction} (member : row ∈ stores .transactions) (same : row.transactionId = t.transactionId) : row = t :=
    @SoundStores.same stores .transactions sound row t member here (congrArg RowKey.id same)
  unfold completeOne
  rw [run_bind_of_ok (find_run .provenTxs _), proofs]
  have proof : unlinkedProof stores t = ((stores .provenTxs).filter (·.txid = txid)).head? := by
    rw [head?_filter, unlinkedProof, if_pos unlinked, is]
    rfl
  cases found : (stores .provenTxs).filter (·.txid = txid) with
  | nil =>
    refine ⟨"", Prod.ext rfl (change_fixed fun row member => ?_).symm⟩
    by_cases same : row.transactionId = t.transactionId
    · rw [if_pos same, only member same, complete_none (proof.trans (congrArg head? found))]
    · rw [if_neg same]
  | cons ptx rest =>
    have proven := proof.trans (congrArg head? found)
    obtain ⟨count, updated⟩ := @update_run hash others stores .transactions t.transactionId { status := some .completed, provenTxId := some (some ptx.provenTxId) }
    refine ⟨completedLog t.transactionId ptx.provenTxId, ?_⟩
    have unfolded : ∀ next : Nat → StorageM String, ((StorageCall.update .transactions t.transactionId
        { status := some .completed, provenTxId := some (some ptx.provenTxId) }).await >>= next).run (callAlone hash others) stores = _ :=
      fun next => run_bind_of_ok updated
    refine (unfolded _).trans (Prod.ext rfl (change_congr fun row member => ?_))
    by_cases same : row.transactionId = t.transactionId
    · rw [if_pos same, only member same, complete_some proven]
      simp [rowKey, UpdateKey.row, updatedRow, TransactionUpdate.spread]
    · simp [rowKey, UpdateKey.row, same]

theorem completeProven_run (sound : SoundStores stores) (ts : List TableTransaction) (inside : ∀ t ∈ ts, t ∈ stores .transactions) (distinct : ts.Nodup) : ∃ log,
    (completeProven (ts.map stripped)).run (callAlone hash others) stores =
      (.ok log, change stores .transactions fun row => if ts.contains row then complete stores row else row) := by
  induction ts generalizing stores with
  | nil => exact ⟨"", by rw [change_fixed fun t _ => by simp]; rfl⟩
  | cons t rest ih =>
    have apart := nodup_cons.mp distinct
    have only {row : TableTransaction} (member : row ∈ stores .transactions) (same : row.transactionId = t.transactionId) : row = t :=
      @SoundStores.same stores .transactions sound row t member (inside t (.head _)) (congrArg RowKey.id same)
    by_cases waits : t.provenTxId = none ∧ t.txid ≠ none
    · obtain ⟨unlinked, named⟩ := waits
      obtain ⟨txid, is⟩ := Option.ne_none_iff_exists'.mp named
      have unfolded : completeProven ((t :: rest).map stripped) = completeOne t.transactionId txid >>= fun first =>
          completeProven (rest.map stripped) >>= fun log => .done (first ++ log) := by
        simp [completeProven, stripped, unlinked, is]
      obtain ⟨first, ran⟩ := @complete_step hash others stores sound t (inside t (.head _)) txid is unlinked
      have stays : ∀ other ∈ rest, other ∈ change stores .transactions (fun row => if row.transactionId = t.transactionId then complete stores row else row) .transactions := by
        intro other member
        have different : other.transactionId ≠ t.transactionId := fun same => apart.1 (only (inside other (.tail _ member)) same ▸ member)
        rw [change_same]
        exact mem_map.mpr ⟨other, inside other (.tail _ member), if_neg different⟩
      have keeps : ∀ row : TableTransaction, (if row.transactionId = t.transactionId then complete stores row else row).transactionId = row.transactionId := by
        intro row
        split
        · exact complete_id row
        · rfl
      obtain ⟨log, finished⟩ := ih (@SoundStores.change stores .transactions _ sound fun row => congrArg RowKey.id (keeps row)) stays apart.2
      rw [unfolded, run_bind_of_ok ran, run_bind_of_ok finished]
      refine ⟨first ++ log, Prod.ext rfl ?_⟩
      rw [run_done, change_change]
      refine change_congr fun row member => ?_
      have untouched := @complete_change stores .transactions (fun row => if row.transactionId = t.transactionId then complete stores row else row) (by simp)
      simp only [Function.comp, untouched]
      by_cases same : row.transactionId = t.transactionId
      · rw [if_pos same, only member same, complete_complete, ite_self, if_pos (by simp)]
      · have different : row ≠ t := fun is => same (is ▸ rfl)
        rw [if_neg same, contains_cons, beq_false_of_ne different, Bool.false_or]
    · have unfolded : completeProven ((t :: rest).map stripped) = completeProven (rest.map stripped) := by
        cases linked : t.provenTxId <;> cases named : t.txid <;> simp_all [completeProven, stripped]
      have unproven : unlinkedProof stores t = none := by
        cases linked : t.provenTxId <;> cases named : t.txid <;> simp_all [unlinkedProof]
      obtain ⟨log, finished⟩ := ih sound (fun other member => inside other (.tail _ member)) apart.2
      rw [unfolded, finished]
      refine ⟨log, Prod.ext rfl (change_congr fun row _ => ?_)⟩
      by_cases same : row = t
      · rw [same, complete_none unproven, ite_self, ite_self]
      · rw [contains_cons, beq_false_of_ne same, Bool.false_or]

def invalid (stores : ObjectStores) : TableTransaction → Bool :=
  named (((stores .provenTxReqs).filter (·.status = .invalid)).map TableProvenTxReq.txid)

def afterFailed (stores : ObjectStores) : ObjectStores := failed stores (invalid stores)

def failedIn (stores : ObjectStores) : List TableTransaction := (stores .transactions).filter (·.status = .failed)

def afterRestored (stores : ObjectStores) : ObjectStores := restored (afterFailed stores) (failedIn (afterFailed stores))

def reviewed (stores : ObjectStores) : ObjectStores := change (afterRestored stores) .transactions (complete stores)

theorem afterRestored_transactions : afterRestored stores .transactions = (stores .transactions).map (failWhen (invalid stores)) := by
  rw [afterRestored, restored, change_other (by simp), afterFailed, failed_transactions]

theorem afterRestored_sound (sound : SoundStores stores) : SoundStores (afterRestored stores) :=
  @SoundStores.change _ .outputs _ (failed_sound sound _) fun o => congrArg RowKey.id (releaseIf_id _ o)

theorem complete_afterRestored (t : TableTransaction) : complete (afterRestored stores) t = complete stores t := by
  unfold afterRestored restored afterFailed failed
  rw [complete_change (by simp), complete_change (by simp), complete_change (by simp)]

theorem find_invalid : find stores .provenTxReqs { status := some .invalid } = (stores .provenTxReqs).filter (·.status = .invalid) := by
  have accepts (req : TableProvenTxReq) : matchesProvenTxReqPartial req { status := some .invalid } = decide (req.status = .invalid) := by
    simp [matchesProvenTxReqPartial, eq, eq_comm]
  simp [find, accepts]

theorem find_failed : find stores .transactions { wanted := { status := some .failed }, noRawTx := true } = (failedIn stores).map stripped := by
  have accepts (t : TableTransaction) : matchesTransactionPartial t { status := some .failed } = decide (t.status = .failed) := by
    simp [matchesTransactionPartial, eq, eqOptional, eq_comm]
  simp [find, findTransactions, accepts, failedIn, stripped]

theorem find_all : find stores .transactions { wanted := {}, noRawTx := true } = (stores .transactions).map stripped := by
  have accepts (t : TableTransaction) : matchesTransactionPartial t {} = true := by
    simp [matchesTransactionPartial, eq, eqOptional]
  simp [find, findTransactions, accepts, stripped]

theorem completeProven_all (sound : SoundStores stores) : ∃ log, (completeProven ((stores .transactions).map stripped)).run (callAlone hash others) stores =
    (.ok log, change stores .transactions (complete stores)) := by
  obtain ⟨log, ran⟩ := @completeProven_run hash others stores sound (stores .transactions) (fun _ member => member)
    (List.Nodup.of_map _ (sound.distinct .transactions))
  refine ⟨log, ran.trans (Prod.ext rfl (change_congr fun t here => ?_))⟩
  exact if_pos (contains_iff_mem.mpr here)

theorem reviewStatusIdb_run (sound : SoundStores stores) :
    ((∀ t ∈ stores .transactions, invalid stores t = true → Failable t) →
      ∃ log, reviewStatusIdb.run (callAlone hash others) stores = (.ok log, reviewed stores)) ∧
    ((∃ t ∈ stores .transactions, invalid stores t = true ∧ ¬ Failable t) →
      ∃ error after, reviewStatusIdb.run (callAlone hash others) stores = (.error error, after)) := by
  have fresh : failed stores (fun _ => false) = stores := failed_none fun t _ => .inr rfl
  obtain ⟨fails, stops⟩ := @failInvalid_run hash others stores sound (fun _ => false) (((stores .provenTxReqs).filter (·.status = .invalid)).map TableProvenTxReq.txid)
  rw [fresh] at fails stops
  unfold reviewStatusIdb
  rw [run_bind_of_ok (find_run .provenTxReqs _), find_invalid]
  constructor
  · intro failable
    obtain ⟨failedLog, first⟩ := fails failable
    have failing : SoundStores (afterFailed stores) := failed_sound sound _
    obtain ⟨restoredLog, second⟩ := @restoreFailed_run hash others _ failing ((failedIn (afterFailed stores)).map stripped)
    have second : (restoreFailed ((failedIn (afterFailed stores)).map stripped)).run (callAlone hash others) (afterFailed stores) =
        (.ok restoredLog, afterRestored stores) := by
      refine second.trans (Prod.ext rfl (change_congr fun o _ => releaseIf_congr ?_))
      rw [any_map]
      rfl
    obtain ⟨completedLog, third⟩ := @completeProven_all hash others _ (afterRestored_sound sound)
    have first : (failInvalid (((stores .provenTxReqs).filter (·.status = .invalid)).map TableProvenTxReq.txid)).run (callAlone hash others) stores =
        (.ok failedLog, afterFailed stores) := first
    refine ⟨failedLog ++ restoredLog ++ completedLog, ?_⟩
    rw [run_bind_of_ok first, run_bind_of_ok (find_run .transactions _), find_failed, run_bind_of_ok second,
      run_bind_of_ok (find_run .transactions _), find_all, run_bind_of_ok third]
    exact Prod.ext rfl (change_congr fun t _ => complete_afterRestored t)
  · intro stuck
    obtain ⟨error, after, ran⟩ := stops (fun _ _ none => by cases none) stuck
    exact ⟨error, after, run_bind_of_error ran⟩


def Released (stores : ObjectStores) (o : TableOutput) : Prop :=
  ∃ t ∈ stores .transactions, o.spentBy = some t.transactionId ∧
    ((invalid stores t = true ∧ t.status ≠ .failed ∧ o.userId = t.userId) ∨ ((invalid stores t = true ∨ t.status = .failed) ∧ Restorable stores t))

instance (o : TableOutput) : Decidable (Released stores o) := inferInstanceAs (Decidable (∃ _, _ ∧ _))

theorem restorable_afterFailed (t : TableTransaction) : Restorable (afterFailed stores) t ↔ Restorable stores t := by
  unfold afterFailed failed
  rw [restorable_change (by simp), restorable_change (by simp)]

theorem reviewed_outputs : reviewed stores .outputs = (stores .outputs).map (releaseIf fun o => Released stores o) := by
  have first : afterFailed stores .outputs =
      (stores .outputs).map (releaseIf fun o => (stores .transactions).any fun t => invalid stores t && t.status ≠ .failed && spentIn t o) := by
    rw [afterFailed, failed, change_other (by simp), change_same]
  have second : reviewed stores .outputs = (afterFailed stores .outputs).map
      (releaseIf fun o => (failedIn (afterFailed stores)).any fun t => decide (Restorable (afterFailed stores) t) && o.spentBy = some t.transactionId) := by
    rw [reviewed, change_other (by simp), afterRestored, restored, change_same]
  rw [second, first, map_map, releaseIf_comp]
  refine map_congr_left fun o _ => releaseIf_congr ?_
  rw [Bool.eq_iff_iff, Bool.or_eq_true, any_eq_true, any_eq_true, decide_eq_true_eq]
  constructor
  · rintro (⟨t, here, holds⟩ | ⟨row, member, holds⟩)
    · simp only [Bool.and_eq_true, decide_eq_true_eq, spentIn] at holds
      exact ⟨t, here, holds.2.2, .inl ⟨holds.1.1, holds.1.2, holds.2.1⟩⟩
    · obtain ⟨there, status⟩ := mem_filter.mp member
      rw [afterFailed, failed_transactions] at there
      obtain ⟨t, here, rfl⟩ := mem_map.mp there
      simp only [Bool.and_eq_true, decide_eq_true_eq, restorable_afterFailed] at holds
      rw [failWhen_id] at holds
      have txid := failWhen_txid (invalid stores) t
      have restorable : Restorable stores t := by
        unfold Restorable at holds ⊢
        rw [← txid]
        exact holds.1
      exact ⟨t, here, holds.2, .inr ⟨(failWhen_status _ t).mp (of_decide_eq_true status), restorable⟩⟩
  · rintro ⟨t, here, spends, ⟨unmet, unfailed, user⟩ | ⟨status, restorable⟩⟩
    · exact .inl ⟨t, here, by simp [unmet, unfailed, spentIn, user, spends]⟩
    · refine .inr ⟨failWhen (invalid stores) t, mem_filter.mpr ⟨?_, decide_eq_true ((failWhen_status _ t).mpr status)⟩, ?_⟩
      · rw [afterFailed, failed_transactions]
        exact mem_map_of_mem here
      · have kept : Restorable (afterFailed stores) (failWhen (invalid stores) t) := by
          rw [restorable_afterFailed]
          unfold Restorable at restorable ⊢
          rw [failWhen_txid]
          exact restorable
        simp [kept, failWhen_id, spends]

theorem reviewed_transactions : reviewed stores .transactions = (stores .transactions).map fun t => complete stores (failWhen (invalid stores) t) := by
  have all : reviewed stores .transactions = (afterRestored stores .transactions).map (complete stores) := change_same
  rw [all, afterRestored_transactions, map_map]
  rfl

/-- A review of storage is total and leaves it settled: it ends, a second review ends and
changes nothing, and no output that a completed transaction spends is left spendable. -/
def ReviewSettles (hash : ScriptHash) (others : Machine storage ObjectStores) (stores : ObjectStores) : Prop :=
  ∃ log after, reviewStatusIdb.run (callAlone hash others) stores = (.ok log, after) ∧
    (∃ again, reviewStatusIdb.run (callAlone hash others) after = (.ok again, after)) ∧
    ∀ o ∈ stores .outputs, ∀ t ∈ after .transactions, o.spentBy = some t.transactionId → t.status = .completed →
      ∀ row ∈ after .outputs, row.outputId = o.outputId → row.spendable = false

/-- The transactions of an invalid request may be failed and have no stored proof; and what a
transaction spends that is or will be completed is locked and is not released. -/
structure Repairable (stores : ObjectStores) : Prop where
  failable : ∀ t ∈ stores .transactions, invalid stores t = true → Failable t
  unproven : ∀ t ∈ stores .transactions, invalid stores t = true → unlinkedProof stores t = none
  locked : ∀ t ∈ stores .transactions, ∀ o ∈ stores .outputs, o.spentBy = some t.transactionId →
    t.status = .completed ∨ unlinkedProof stores t ≠ none → o.spendable = false ∧ ¬ (t.status = .failed ∧ Restorable stores t)

theorem unlinkedProof_failWhen (which : TableTransaction → Bool) (t : TableTransaction) : unlinkedProof stores (failWhen which t) = unlinkedProof stores t := by
  unfold failWhen
  split <;> rfl

theorem reviewed_status (t : TableTransaction) : (complete stores (failWhen (invalid stores) t)).status =
    if unlinkedProof stores t ≠ none then .completed else if invalid stores t then .failed else t.status := by
  cases proven : unlinkedProof stores t with
  | none =>
    rw [complete_none ((unlinkedProof_failWhen _ t).trans proven), if_neg (by simp)]
    unfold failWhen
    split <;> rfl
  | some ptx => rw [complete_some ((unlinkedProof_failWhen _ t).trans proven), if_pos (by simp)]

theorem reviewed_id (t : TableTransaction) : (complete stores (failWhen (invalid stores) t)).transactionId = t.transactionId :=
  (complete_id _).trans (failWhen_id _ t)

theorem invalid_reviewed : invalid (reviewed stores) = invalid stores := by
  have requests : reviewed stores .provenTxReqs = stores .provenTxReqs := by
    rw [reviewed, change_other (by simp), afterRestored, restored, change_other (by simp), afterFailed, failed, change_other (by simp), change_other (by simp)]
  unfold invalid
  rw [requests]

theorem restorable_reviewed (t : TableTransaction) : Restorable (reviewed stores) t ↔ Restorable stores t := by
  unfold reviewed afterRestored restored
  rw [restorable_change (by simp), restorable_change (by simp), restorable_afterFailed]

theorem complete_reviewed (t : TableTransaction) : complete (reviewed stores) t = complete stores t := by
  unfold reviewed
  rw [complete_change (by simp), complete_afterRestored]

theorem complete_txid (t : TableTransaction) : (complete stores t).txid = t.txid := by
  unfold complete
  split <;> rfl

theorem reviewed_reviewed (unproven : ∀ t ∈ stores .transactions, invalid stores t = true → unlinkedProof stores t = none) :
    reviewed (reviewed stores) = reviewed stores := by
  have first : afterFailed (reviewed stores) = reviewed stores := by
    refine failed_none fun row member => ?_
    rw [reviewed_transactions] at member
    obtain ⟨t, here, rfl⟩ := mem_map.mp member
    rw [invalid_reviewed, reviewed_status]
    have named : invalid stores (complete stores (failWhen (invalid stores) t)) = invalid stores t := by
      unfold invalid named
      rw [complete_txid, failWhen_txid]
    rw [named]
    by_cases met : invalid stores t = true
    · simp [met, unproven t here met]
    · exact .inr (by simpa using met)
  have second : afterRestored (reviewed stores) = reviewed stores := by
    rw [afterRestored, first, restored]
    refine change_fixed fun o member => ?_
    rw [reviewed_outputs] at member
    obtain ⟨was, here, rfl⟩ := mem_map.mp member
    refine if_neg fun released => ?_
    obtain ⟨row, listed, holds⟩ := any_eq_true.mp released
    obtain ⟨there, status⟩ := mem_filter.mp listed
    rw [reviewed_transactions] at there
    obtain ⟨t, present, rfl⟩ := mem_map.mp there
    simp only [Bool.and_eq_true, decide_eq_true_eq, restorable_reviewed, reviewed_id] at holds
    have status := (reviewed_status t).symm.trans (of_decide_eq_true status)
    by_cases unlocked : Released stores was
    · simp [releaseIf, unlocked, release] at holds
    · have kept : releaseIf (fun o => Released stores o) was = was := if_neg (by simpa using unlocked)
      rw [kept] at holds
      have restorable : Restorable stores t := by
        have other := holds.1
        unfold Restorable at other ⊢
        rw [complete_txid, failWhen_txid] at other
        exact other
      refine unlocked ⟨t, present, holds.2, .inr ⟨?_, restorable⟩⟩
      by_cases met : invalid stores t = true
      · exact .inl met
      · refine .inr ?_
        by_cases proven : unlinkedProof stores t = none
        · simpa [proven, met] using status
        · simp [proven] at status
  show change (afterRestored (reviewed stores)) .transactions (complete (reviewed stores)) = _
  rw [second]
  refine change_fixed fun row member => ?_
  rw [reviewed_transactions] at member
  obtain ⟨t, _, rfl⟩ := mem_map.mp member
  rw [complete_reviewed, complete_complete]

theorem reviewed_sound (sound : SoundStores stores) : SoundStores (reviewed stores) :=
  (afterRestored_sound sound).change fun t => congrArg RowKey.id (complete_id t)

theorem reviewed_failable :
    (∀ t ∈ reviewed stores .transactions, invalid (reviewed stores) t = true → Failable t) ↔
      ∀ t ∈ stores .transactions, invalid stores t = true → unlinkedProof stores t = none := by
  have named (t : TableTransaction) : invalid (reviewed stores) (complete stores (failWhen (invalid stores) t)) = invalid stores t := by
    rw [invalid_reviewed]
    unfold invalid named
    rw [complete_txid, failWhen_txid]
  rw [reviewed_transactions]
  constructor
  · intro still t here met
    by_contra proven
    have completed : (complete stores (failWhen (invalid stores) t)).status = .completed := by rw [reviewed_status, if_pos proven]
    rcases still _ (mem_map_of_mem here) ((named t).trans met) with failed | ⟨incomplete, _⟩
    · rw [completed] at failed
      cases failed
    · exact incomplete completed
  · intro unproven row member met
    obtain ⟨t, here, rfl⟩ := mem_map.mp member
    rw [named] at met
    refine .inl ?_
    rw [reviewed_status, if_neg (by simp [unproven t here met]), if_pos met]

theorem released_spendable (sound : SoundStores stores) (failable : ∀ t ∈ stores .transactions, invalid stores t = true → Failable t)
    (unproven : ∀ t ∈ stores .transactions, invalid stores t = true → unlinkedProof stores t = none) (here : t ∈ stores .transactions) (spends : o.spentBy = some t.transactionId)
    (final : t.status = .completed ∨ unlinkedProof stores t ≠ none) :
    (releaseIf (fun o => Released stores o) o).spendable = false ↔ o.spendable = false ∧ ¬ (t.status = .failed ∧ Restorable stores t) := by
  have valid : ¬ invalid stores t = true := by
    intro met
    rcases final with completed | proven
    · rcases failable t here met with failed | ⟨incomplete, _⟩
      · rw [completed] at failed
        cases failed
      · exact incomplete completed
    · exact proven (unproven t here met)
  have only : Released stores o ↔ t.status = .failed ∧ Restorable stores t := by
    constructor
    · rintro ⟨other, there, also, why⟩
      have same := @SoundStores.same stores .transactions sound other t there here (congrArg RowKey.id (Option.some.inj (also.symm.trans spends)))
      subst same
      rcases why with ⟨met, _⟩ | ⟨met | failed, restorable⟩
      · exact (valid met).elim
      · exact (valid met).elim
      · exact ⟨failed, restorable⟩
    · rintro ⟨failed, restorable⟩
      exact ⟨t, here, spends, .inr ⟨.inr failed, restorable⟩⟩
  rw [← only]
  by_cases released : Released stores o
  · simp [releaseIf, released, release]
  · simp [releaseIf, released]

/-- A review settles exactly the states that it can repair. -/
theorem reviewStatusIdb_settles (hash : ScriptHash) (others : Machine storage ObjectStores) (stores : ObjectStores) (sound : SoundStores stores) :
    ReviewSettles hash others stores ↔ Repairable stores := by
  obtain ⟨ends, refused⟩ := @reviewStatusIdb_run hash others stores sound
  obtain ⟨endsAgain, refusedAgain⟩ := @reviewStatusIdb_run hash others _ (reviewed_sound sound)
  constructor
  · rintro ⟨log, after, ran, ⟨again, ranAgain⟩, locked⟩
    have failable : ∀ t ∈ stores .transactions, invalid stores t = true → Failable t := by
      by_contra some
      push Not at some
      obtain ⟨error, stopped, threw⟩ := refused some
      rw [ran] at threw
      cases threw
    obtain ⟨_, same⟩ := ends failable
    rw [ran] at same
    obtain ⟨_, rfl⟩ := Prod.mk.inj same
    have unproven : ∀ t ∈ stores .transactions, invalid stores t = true → unlinkedProof stores t = none := by
      rw [← reviewed_failable]
      by_contra some
      push Not at some
      obtain ⟨error, stopped, threw⟩ := refusedAgain some
      rw [ranAgain] at threw
      cases threw
    refine ⟨failable, unproven, fun t here o present spends final => ?_⟩
    have completed : (complete stores (failWhen (invalid stores) t)).status = .completed := by
      rw [reviewed_status]
      by_cases proven : unlinkedProof stores t = none
      · have was := final.resolve_right (fun some => some proven)
        have valid : ¬ invalid stores t = true := by
          intro met
          rcases failable t here met with failed | ⟨incomplete, _⟩
          · rw [was] at failed
            cases failed
          · exact incomplete was
        rw [if_neg (by simp [proven]), if_neg valid, was]
      · rw [if_pos proven]
    rw [← released_spendable sound failable unproven here spends final]
    refine locked o present _ ?_ (spends.trans (congrArg some (reviewed_id t).symm)) completed _ ?_ (releaseIf_id _ o)
    · rw [reviewed_transactions]
      exact mem_map_of_mem here
    · rw [reviewed_outputs]
      exact mem_map_of_mem present
  · intro repairable
    obtain ⟨log, ran⟩ := ends repairable.failable
    obtain ⟨again, ranAgain⟩ := endsAgain (reviewed_failable.mpr repairable.unproven)
    rw [reviewed_reviewed repairable.unproven] at ranAgain
    refine ⟨log, _, ran, ⟨again, ranAgain⟩, fun o present row member spends completed twin listed same => ?_⟩
    rw [reviewed_transactions] at member
    obtain ⟨t, here, rfl⟩ := mem_map.mp member
    rw [reviewed_outputs] at listed
    obtain ⟨was, there, rfl⟩ := mem_map.mp listed
    have is := @SoundStores.same stores .outputs sound was o there present (congrArg RowKey.id ((releaseIf_id _ was).symm.trans same))
    rw [is]
    have spends := spends.trans (congrArg some (reviewed_id t))
    have final : t.status = .completed ∨ unlinkedProof stores t ≠ none := by
      by_contra neither
      push Not at neither
      rw [reviewed_status, if_neg (by simp [neither.2])] at completed
      split at completed
      · cases completed
      · exact neither.1 completed
    exact (released_spendable sound repairable.failable repairable.unproven here spends final).mpr (repairable.locked t here o present spends final)

end

section
def spendingTransaction (status : TransactionStatus) : TableTransaction :=
  { transactionId := 1, userId := 1, provenTxId := none, status, reference := "payment", isOutgoing := true, satoshis := -600, description := "a payment",
    version := some 1, lockTime := some 0, txid := some "5a", inputBEEF := none, rawTx := none }

def spentOutput : TableOutput :=
  { outputId := 1, userId := 1, transactionId := 7, basketId := some 1, spendable := false, change := true, outputDescription := "", vout := 0,
    satoshis := 1000, providedBy := .storage, purpose := "change", type := "P2PKH", txid := some "21", senderIdentityKey := none,
    derivationPrefix := none, derivationSuffix := none, customInstructions := none, spentBy := some 1, sequenceNumber := none,
    spendingDescription := none, scriptLength := none, scriptOffset := none, lockingScript := none, scriptHash := none }

def sentRequest (status : ProvenTxReqStatus) : TableProvenTxReq :=
  { provenTxReqId := 1, provenTxId := none, status, attempts := 0, notified := false, txid := "5a", batch := none, history := [], notify := [1],
    rawTx := [], inputBEEF := none, wasBroadcast := true, rebroadcastAttempts := 0 }

def minedProof : TableProvenTx :=
  { provenTxId := 1, txid := "5a", height := 900000, index := 0, merklePath := [], rawTx := [], blockHash := "", merkleRoot := "" }

def onePaymentStored (tx : TableTransaction) (status : ProvenTxReqStatus) (proofs : List TableProvenTx) : ObjectStores
  | .transactions => [tx]
  | .outputs => [spentOutput]
  | .provenTxReqs => [sentRequest status]
  | .provenTxs => proofs
  | .certificates => []
  | .commissions => []
  | .outputBaskets => []
  | .outputTags => []
  | .outputTagsMap => []
  | .txLabels => []
  | .txLabelsMap => []
  | .users => []

def refuse : Machine storage ObjectStores := fun _ stores => (.error (.error "not a find or an update"), stores)

theorem onePaymentStored_sound (status : TransactionStatus) (linked : Option Nat) (reqStatus : ProvenTxReqStatus) (proofs : List TableProvenTx)
    (one : proofs = [] ∨ proofs = [minedProof]) : SoundStores (onePaymentStored { spendingTransaction status with provenTxId := linked } reqStatus proofs) := by
  rcases one with rfl | rfl <;> constructor <;> intro table <;> cases table <;>
    simp [onePaymentStored, rowKey, spendingTransaction, spentOutput, sentRequest, minedProof]

/-- The payment is unsigned or sent, and its request turned out invalid. -/
theorem reviewStatusIdb_settles_sample :
    ReviewSettles (fun _ => "") refuse (onePaymentStored { spendingTransaction .unproven with provenTxId := none } .invalid []) := by
  refine (reviewStatusIdb_settles _ _ _ (onePaymentStored_sound .unproven none .invalid [] (.inl rfl))).mpr ⟨?_, ?_, ?_⟩ <;>
    simp [onePaymentStored, spendingTransaction, Failable, unlinkedProof, truthyId]

/-- A review is refused while a completed payment has an invalid request, and a failed payment
that is proven is completed with its input released. -/
theorem reviewed_completed_and_proven :
    ¬ ReviewSettles (fun _ => "") refuse (onePaymentStored { spendingTransaction .completed with provenTxId := some 1 } .invalid [minedProof]) ∧
    ¬ ReviewSettles (fun _ => "") refuse (onePaymentStored { spendingTransaction .failed with provenTxId := none } .doubleSpend [minedProof]) := by
  constructor
  · rintro ⟨log, after, ran, _⟩
    have stuck := (@reviewStatusIdb_run (fun _ => "") refuse _ (onePaymentStored_sound .completed (some 1) .invalid [minedProof] (.inr rfl))).2
      ⟨_, .head _, by decide, by simp [Failable, spendingTransaction]⟩
    obtain ⟨error, stopped, threw⟩ := stuck
    rw [ran] at threw
    cases threw
  · rintro ⟨log, after, ran, _, locked⟩
    obtain ⟨_, same⟩ := (@reviewStatusIdb_run (fun _ => "") refuse _ (onePaymentStored_sound .failed none .doubleSpend [minedProof] (.inr rfl))).1
      fun t here met => by
        cases mem_singleton.mp here
        simp [invalid, onePaymentStored, sentRequest, named] at met
    rw [ran] at same
    obtain ⟨_, rfl⟩ := Prod.mk.inj same
    have spendable := locked spentOutput (.head _) { spendingTransaction .completed with provenTxId := some 1 } (by decide) rfl rfl (release spentOutput) (by decide) rfl
    cases spendable

end
end ReviewStatus
end WalletToolbox

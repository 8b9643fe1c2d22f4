import WalletToolbox.Monitor.Sweeps

/-! Which rows a sweep of the monitor examines. The offset advances by a page whatever the
rows of the page have become, so rows that leave the selection take later ones past it. -/

namespace WalletToolbox
open Effects Sweep

def ExaminesEach {Row : Type} (task : Fallible WalletError (Swept Row) Unit) (wanted : Row → Bool) (table : Table Row) : Prop :=
  ∀ id ∈ table.listed wanted, (task { table }).2.examined.count id = 1

section
variable {Row : Type} {selected : Row → Bool} {picked : Nat → Row → Bool} {process : Row → Except WalletError Row}

theorem sweep_examines (table) :
    ∃ new, Examines selected process 0 { table } (sweep sweepLimit selected picked process { table }).2 new :=
  sweepFrom_examines ..

theorem sweep_enough (table : Table Row) : (table.listed selected).length < 0 + (table.ids.length + 1) * sweepLimit := by
  have fewer : (table.listed selected).length ≤ table.ids.length := List.length_filter_le ..
  unfold sweepLimit
  omega

theorem once_iff (nodup : new.Nodup) (same : examined = [] ++ new) (id : Nat) : examined.count id = 1 ↔ id ∈ new := by
  rw [same, List.nil_append]
  constructor
  · intro once
    exact List.count_pos_iff.mp (by omega)
  · exact List.count_eq_one_of_mem nodup

theorem sweep_each_iff (table : Table Row) :
    ExaminesEach (sweep sweepLimit selected all process) selected table ↔
      Sweep.Undisturbed sweepLimit selected process table.row (table.listed selected) := by
  obtain ⟨new, examines⟩ := @sweep_examines _ selected all process table
  have every := examines_all_iff (by decide) 0 _ (sweep_enough table) examines
  rw [List.drop_zero] at every
  rw [← every]
  exact forall₂_congr fun id _ => once_iff examines.nodup examines.examined id

theorem idle_each_iff (table) : ExaminesEach (return) selected table ↔ table.listed selected = [] := by
  constructor
  · intro each
    refine List.eq_nil_iff_forall_not_mem.mpr fun id member => ?_
    have none : ([] : List Nat).count id = 1 := each id member
    rw [List.count_nil] at none
    omega
  · intro empty id member
    rw [empty] at member
    nomatch member

theorem undisturbed_leaving (positive : 0 < limit) (leaves : ∀ row, Sweep.Passes process row → selected (outcome process row) = false) :
    Sweep.Undisturbed limit selected process row ids ↔
      ids.length ≤ limit ∧ ∀ i (inside : i < ids.length), i + 1 < ids.length → Sweep.Passes process (row ids[i]) := by
  constructor
  · intro undisturbed
    have short : ids.length ≤ limit := by
      refine Nat.le_of_not_lt fun long => ?_
      obtain ⟨passes, stays⟩ := undisturbed 0 (by omega)
      have gone := leaves _ (passes (by omega))
      have stay := stays (by rw [Nat.zero_div]; omega)
      rw [gone] at stay
      nomatch stay
    exact ⟨short, (undisturbed_page short).mp undisturbed⟩
  · rintro ⟨short, passes⟩
    exact (undisturbed_page short).mpr passes

theorem sweep_row_iff (leaves : ∀ row, Sweep.Passes process row → selected (outcome process row) = false) (table : Table Row)
    (i : Nat) (inside : i < (table.listed selected).length) :
    (sweep sweepLimit selected picked process { table }).2.examined.count (table.listed selected)[i] = 1 ↔
      Arrives sweepLimit picked process table.row 0 (table.listed selected) i inside := by
  obtain ⟨new, examines⟩ := @sweep_examines _ selected picked process table
  exact (once_iff examines.nodup examines.examined _).trans
    (examines_iff_arrives (by decide) leaves 0 _ (sweep_enough table) examines i inside)

theorem sweep_row (table) (id : Nat) :
    (sweep sweepLimit selected picked process { table }).2.table.row id =
      if (sweep sweepLimit selected picked process { table }).2.examined.count id = 1 then outcome process (table.row id) else table.row id := by
  obtain ⟨new, examines⟩ := @sweep_examines _ selected picked process table
  rw [examines.rows id]
  exact if_congr (once_iff examines.nodup examines.examined id).symm rfl rfl

end

namespace TaskUnFail

theorem settle_status
    (ran : settle calls req path = .ok settled) : settled.status = .unmined ∨ settled.status = .invalid := by
  cases path with
  | none =>
    cases ran
    exact .inr rfl
  | some path =>
    obtain ⟨_, -, same⟩ := bind_eq_ok.mp ran
    cases same
    exact .inl rfl

theorem unfail_leaves (req after) (ran : unfail calls req = .ok after) : selects after = false := by
  obtain ⟨r, -, ran⟩ := bind_eq_ok.mp ran
  obtain ⟨settled, status, ran⟩ := bind_eq_ok.mp ran
  obtain ⟨_, -, same⟩ := bind_eq_ok.mp ran
  cases same
  change decide (settled.status = .unfail) = false
  rcases settle_status status with same | same <;> rw [same] <;> rfl

end TaskUnFail

theorem leaves_of_ok {Row : Type} {selected : Row → Bool} {process : Row → Except WalletError Row}
    (gone : ∀ row after, process row = .ok after → selected after = false) (row : Row) (passes : Sweep.Passes process row) :
    selected (outcome process row) = false := gone row _ (passes_iff.mp passes)

namespace TaskFailAbandoned

theorem fail_failed (ran : fail calls row = .ok after) :
    after.transaction.status = .failed := by
  obtain ⟨updatedAt, -, same⟩ := bind_eq_ok.mp ran
  cases same
  rfl

theorem fail_leaves (row after) (ran : fail calls row = .ok after) : selects after = false := by
  change decide (after.transaction.status ∈ statuses) = false
  rw [fail_failed ran]
  rfl

def wanted (calls : FailAbandonedCalls) (row : DatedTransaction) : Bool := selects row && abandoned calls 0 row

theorem listed_wanted (calls) (table : Table DatedTransaction) {property : Nat → Prop} :
    (∀ id ∈ table.listed (wanted calls), property id) ↔
      ∀ i (inside : i < (table.listed selects).length), abandoned calls 0 (table.row (table.listed selects)[i]) = true →
        property (table.listed selects)[i] := by
  constructor
  · intro each i inside old
    refine each _ (List.mem_filter.mpr ?_)
    obtain ⟨known, selected⟩ := List.mem_filter.mp (List.getElem_mem inside)
    exact ⟨known, Bool.and_eq_true_iff.mpr ⟨selected, old⟩⟩
  · intro each id member
    obtain ⟨known, both⟩ := List.mem_filter.mp member
    obtain ⟨selected, old⟩ := Bool.and_eq_true_iff.mp both
    obtain ⟨i, inside, rfl⟩ := List.mem_iff_getElem.mp (List.mem_filter.mpr ⟨known, selected⟩ : id ∈ table.listed selects)
    exact each i inside old

theorem failed_iff (calls) (table) (id : Nat) (selected : selects (table.row id) = true) :
    ((runTask calls { table }).2.table.row id).transaction.status = .failed ↔
      (runTask calls { table }).2.examined.count id = 1 ∧ Sweep.Passes (fail calls) (table.row id) := by
  have unfailed : (table.row id).transaction.status ≠ .failed := by
    intro same
    have : decide ((table.row id).transaction.status ∈ statuses) = true := selected
    rw [same] at this
    nomatch this
  rw [runTask, sweep_row]
  split
  next once =>
    rw [and_iff_right once]
    constructor
    · intro failed
      by_contra throws
      rw [outcome_thrown throws] at failed
      exact unfailed failed
    · intro passes
      exact fail_failed (passes_iff.mp passes)
  next never => exact iff_of_false unfailed fun both => never both.1

end TaskFailAbandoned

theorem checked_iff (height) (selected : TableProvenTxReq → Bool) (getProof : Nat → TableProvenTxReq → Except WalletError TableProvenTxReq)
    (table) :
    ExaminesEach (match height with
      | none => return
      | some height => sweep sweepLimit selected all (getProof height)) selected table ↔
      match height with
      | none => table.listed selected = []
      | some height => Sweep.Undisturbed sweepLimit selected (getProof height) table.row (table.listed selected) := by
  cases height with
  | none => exact idle_each_iff table
  | some height => exact sweep_each_iff table

theorem unfailed_iff (calls) (table) :
    ExaminesEach (TaskUnFail.runTask calls) TaskUnFail.selects table ↔
      (table.listed TaskUnFail.selects).length ≤ sweepLimit ∧ ∀ i (inside : i < (table.listed TaskUnFail.selects).length),
        i + 1 < (table.listed TaskUnFail.selects).length → Sweep.Passes (TaskUnFail.unfail calls) (table.row (table.listed TaskUnFail.selects)[i]) :=
  (sweep_each_iff table).trans (undisturbed_leaving (by decide) (leaves_of_ok TaskUnFail.unfail_leaves))

section
open TaskFailAbandoned

theorem abandoned_row_iff (calls) (table) (i : Nat) (inside : i < (table.listed selects).length) :
    (TaskFailAbandoned.runTask calls { table }).2.examined.count (table.listed selects)[i] = 1 ↔
      Arrives sweepLimit (abandoned calls) (fail calls) table.row 0 (table.listed selects) i inside :=
  sweep_row_iff (leaves_of_ok fail_leaves) table i inside

theorem abandoned_iff (calls) (table : Table DatedTransaction) :
    ExaminesEach (TaskFailAbandoned.runTask calls) (wanted calls) table ↔
      ∀ i (inside : i < (table.listed selects).length), abandoned calls 0 (table.row (table.listed selects)[i]) = true →
        Arrives sweepLimit (abandoned calls) (fail calls) table.row 0 (table.listed selects) i inside := by
  unfold ExaminesEach
  rw [listed_wanted]
  exact forall₂_congr fun i inside => imp_congr_right fun _ => abandoned_row_iff calls table i inside

theorem abandoned_failed_iff (calls) (table : Table DatedTransaction) :
    (∀ id ∈ table.listed (wanted calls), ((TaskFailAbandoned.runTask calls { table }).2.table.row id).transaction.status = .failed) ↔
      ∀ i (inside : i < (table.listed selects).length), abandoned calls 0 (table.row (table.listed selects)[i]) = true →
        Arrives sweepLimit (abandoned calls) (fail calls) table.row 0 (table.listed selects) i inside ∧
          Sweep.Passes (fail calls) (table.row (table.listed selects)[i]) := by
  rw [listed_wanted]
  refine forall₂_congr fun i inside => imp_congr_right fun _ => ?_
  have selected := (List.mem_filter.mp (List.getElem_mem inside)).2
  exact (failed_iff calls table _ selected).trans (and_congr_left' (abandoned_row_iff calls table i inside))

end

/-- The requests with a status of the task are all examined, each once, when none but the last
throws and none leaves the selection before the last page; those to unfail always leave, so
there may be one page of them. The abandoned transactions are examined when every second
page before them is abandoned as a whole, and they are on such a page themselves. -/
theorem sweeps_examine_iff (requests : Table TableProvenTxReq) (transactions : Table DatedTransaction) :
    (∀ lastNewHeader lastNewBlockHeight getProof,
      ExaminesEach (TaskCheckForProofs.runTask lastNewHeader lastNewBlockHeight getProof) TaskCheckForProofs.selects requests ↔
        match TaskCheckForProofs.maxAcceptableHeight lastNewHeader lastNewBlockHeight with
        | none => requests.listed TaskCheckForProofs.selects = []
        | some height => Sweep.Undisturbed sweepLimit TaskCheckForProofs.selects (getProof height) requests.row (requests.listed TaskCheckForProofs.selects)) ∧
    (∀ lastNewHeader getProof, ExaminesEach (TaskCheckNoSends.runTask lastNewHeader getProof) TaskCheckNoSends.selects requests ↔
        match lastNewHeader with
        | none => requests.listed TaskCheckNoSends.selects = []
        | some height => Sweep.Undisturbed sweepLimit TaskCheckNoSends.selects (getProof height) requests.row (requests.listed TaskCheckNoSends.selects)) ∧
    (∀ calls, ExaminesEach (TaskUnFail.runTask calls) TaskUnFail.selects requests ↔
      (requests.listed TaskUnFail.selects).length ≤ sweepLimit ∧ ∀ i (inside : i < (requests.listed TaskUnFail.selects).length),
        i + 1 < (requests.listed TaskUnFail.selects).length → Sweep.Passes (TaskUnFail.unfail calls) (requests.row (requests.listed TaskUnFail.selects)[i])) ∧
    (∀ calls, ExaminesEach (TaskFailAbandoned.runTask calls) (TaskFailAbandoned.wanted calls) transactions ↔
      ∀ i (inside : i < (transactions.listed TaskFailAbandoned.selects).length),
        TaskFailAbandoned.abandoned calls 0 (transactions.row (transactions.listed TaskFailAbandoned.selects)[i]) = true →
          Arrives sweepLimit (TaskFailAbandoned.abandoned calls) (TaskFailAbandoned.fail calls) transactions.row 0
            (transactions.listed TaskFailAbandoned.selects) i inside) ∧
    (∀ calls, (∀ id ∈ transactions.listed (TaskFailAbandoned.wanted calls),
        ((TaskFailAbandoned.runTask calls { table := transactions }).2.table.row id).transaction.status = .failed) ↔
      ∀ i (inside : i < (transactions.listed TaskFailAbandoned.selects).length),
        TaskFailAbandoned.abandoned calls 0 (transactions.row (transactions.listed TaskFailAbandoned.selects)[i]) = true →
          Arrives sweepLimit (TaskFailAbandoned.abandoned calls) (TaskFailAbandoned.fail calls) transactions.row 0
            (transactions.listed TaskFailAbandoned.selects) i inside ∧
          Sweep.Passes (TaskFailAbandoned.fail calls) (transactions.row (transactions.listed TaskFailAbandoned.selects)[i])) :=
  ⟨fun lastNewHeader lastNewBlockHeight getProof => checked_iff (lastNewHeader.or lastNewBlockHeight) _ getProof requests,
    fun lastNewHeader getProof => checked_iff lastNewHeader _ getProof requests, fun calls => unfailed_iff calls requests,
    fun calls => abandoned_iff calls transactions, fun calls => abandoned_failed_iff calls transactions⟩

/-! Two tables with one row more than a page. -/

def manyIds : Nat := 101

def failedRequest (id : Nat) : TableProvenTxReq where
  provenTxReqId := id
  provenTxId := none
  status := .unfail
  attempts := 0
  notified := false
  txid := ""
  batch := none
  history := []
  notify := []
  rawTx := []
  inputBEEF := none
  wasBroadcast := false
  rebroadcastAttempts := 0

def openTransaction (id : Nat) : TableTransaction where
  transactionId := id
  userId := 1
  provenTxId := none
  status := .unprocessed
  reference := ""
  isOutgoing := true
  satoshis := 0
  description := ""
  version := none
  lockTime := none
  txid := none
  inputBEEF := none
  rawTx := none

def manyRequests : Table TableProvenTxReq := ⟨List.range manyIds, List.nodup_range, failedRequest⟩

/-- The last transaction has not been updated for long, all before it just now. -/
def manyTransactions : Table DatedTransaction :=
  ⟨List.range manyIds, List.nodup_range, fun id => ⟨openTransaction id, some (if id < 100 then 1000 else 0)⟩⟩

def noneProven : TaskUnFail.UnFailCalls where
  now _ := ""
  getMerklePath _ := .ok {}
  unfailReq _ := .ok ()
  updateStorageDynamicProperties _ := .ok ()

def allUpdated : TaskFailAbandoned.FailAbandonedCalls where
  now _ := 1000
  abandonedMsecs := 500
  updateTransactionStatus _ := .ok 1000

theorem sweeps_miss_rows :
    ¬ExaminesEach (TaskUnFail.runTask noneProven) TaskUnFail.selects manyRequests ∧
      ¬ExaminesEach (TaskFailAbandoned.runTask allUpdated) (TaskFailAbandoned.wanted allUpdated) manyTransactions := by
  have requests : manyRequests.listed TaskUnFail.selects = List.range manyIds := List.filter_eq_self.mpr fun _ _ => rfl
  have transactions : manyTransactions.listed TaskFailAbandoned.selects = List.range manyIds := List.filter_eq_self.mpr fun _ _ => rfl
  constructor
  · rw [unfailed_iff, requests]
    intro both
    have short := both.1
    rw [List.length_range] at short
    exact absurd short (by decide)
  · rw [abandoned_iff]
    simp only [transactions]
    intro each
    have last : 100 < (List.range manyIds).length := by
      rw [List.length_range]
      decide
    have arrives := each 100 last (by rw [List.getElem_range]; decide)
    have first := arrives.full 0 (by decide) (by decide) (by decide)
    rw [List.getElem_range] at first
    exact absurd first (by decide)

end WalletToolbox

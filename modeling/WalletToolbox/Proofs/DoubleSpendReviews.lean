import Mathlib.Data.List.Nodup
import WalletToolbox.Monitor.TaskReviewDoubleSpends

/-! What the review of double spends goes by. A request is moved on evidence where the answers
name every txid, and all get their turn where the young rows are listed last. -/

namespace WalletToolbox
open Effects TaskReviewDoubleSpends ReqTable List

def Unfailing.Evident (unfailing : Unfailing) : Prop :=
  ∃ stc ∈ unfailing.services, ∃ batch r, stc.service batch = some r ∧ r.status = .success ∧
    ∃ result ∈ r.results, result.txid = unfailing.row.req.txid ∧ result.status ≠ .unknown

namespace Services

def Succeeds (stc : StatusProvider) (txids : List String) : Prop := ∀ batch ∈ statusBatches txids, ∃ r, stc.service batch = some r ∧ r.status = .success

def Names (services : List StatusProvider) (txids : List String) : Prop :=
  ∃ before stc after, services = before ++ stc :: after ∧ (∀ other ∈ before, ¬Succeeds other txids) ∧ Succeeds stc txids ∧
    ∀ txid ∈ txids, ∃ batch ∈ statusBatches txids, ∃ r, stc.service batch = some r ∧ ∃ result ∈ r.results, result.txid = txid

theorem joinBatches_success (error)
    (results) :
    (joinBatches stc error results batches).status = .success ↔ ∀ r ∈ batches, r.status = .success := by
  induction batches generalizing error results with
  | nil => exact iff_of_true rfl fun _ none => nomatch none
  | cons r rest ih =>
    unfold joinBatches
    by_cases good : r.status = .success
    · rw [if_neg (not_not.mpr good), ih, forall_mem_cons]
      exact ⟨fun all => ⟨good, all⟩, And.right⟩
    · rw [if_pos good, forall_mem_cons]
      exact ⟨fun success => absurd success good, fun all => absurd all.1 good⟩

theorem joinBatches_results (good : ∀ r ∈ batches, r.status = .success)
    (error) (results) :
    (joinBatches stc error results batches).results = results ++ batches.flatMap (·.results) := by
  induction batches generalizing error results with
  | nil => simp [joinBatches]
  | cons r rest ih =>
    obtain ⟨here, good⟩ := forall_mem_cons.mp good
    unfold joinBatches
    rw [if_neg (not_not.mpr here), ih good, append_assoc, flatMap_cons]

theorem mapM_some :
    as.mapM f = some bs ↔ List.Forall₂ (fun a b => f a = some b) as bs := by
  induction as generalizing bs with
  | nil =>
    rw [mapM_nil]
    cases bs with
    | nil => exact iff_of_true rfl .nil
    | cons b rest => exact iff_of_false (fun same => nomatch same) (fun all => nomatch all)
  | cons a rest ih =>
    rw [mapM_cons]
    cases bs with
    | nil =>
      refine iff_of_false (fun same => ?_) (fun all => nomatch all)
      obtain ⟨b, -, later⟩ := Option.bind_eq_some_iff.mp same
      obtain ⟨others, -, none⟩ := Option.bind_eq_some_iff.mp later
      cases none
    | cons b others =>
      rw [forall₂_cons, ← ih]
      constructor
      · intro same
        obtain ⟨found, here, later⟩ := Option.bind_eq_some_iff.mp same
        obtain ⟨list, there, both⟩ := Option.bind_eq_some_iff.mp later
        cases both
        exact ⟨here, there⟩
      · rintro ⟨here, there⟩
        rw [here, there]
        rfl

theorem forall₂_left (all : List.Forall₂ relation as bs) (member : a ∈ as) :
    ∃ b ∈ bs, relation a b := by
  induction all with
  | nil => cases member
  | cons here _ ih =>
    rcases mem_cons.mp member with rfl | later
    · exact ⟨_, .head _, here⟩
    · obtain ⟨b, inside, related⟩ := ih later
      exact ⟨b, .tail _ inside, related⟩

theorem forall₂_right (all : List.Forall₂ relation as bs) (member : b ∈ bs) :
    ∃ a ∈ as, relation a b :=
  forall₂_left all.flip member

theorem mapM_total {α β : Type} {f : α → Option β} {as : List α} (total : ∀ a ∈ as, ∃ b, f a = some b) : ∃ bs, as.mapM f = some bs := by
  induction as with
  | nil => exact ⟨[], rfl⟩
  | cons a rest ih =>
    obtain ⟨b, here⟩ := total a (.head _)
    obtain ⟨bs, later⟩ := ih fun other member => total other (.tail _ member)
    refine ⟨b :: bs, ?_⟩
    rw [mapM_cons, here, later]
    rfl

theorem succeeds_iff :
    Succeeds stc txids ↔ ∃ r, getStatusForTxidsBatched stc txids = some r ∧ r.status = .success := by
  constructor
  · intro succeeds
    obtain ⟨answers, all⟩ := @mapM_total _ _ stc.service (statusBatches txids) fun batch member => by
      obtain ⟨r, answered, -⟩ := succeeds batch member
      exact ⟨r, answered⟩
    refine ⟨_, by rw [getStatusForTxidsBatched, all]; rfl, ?_⟩
    rw [joinBatches_success]
    intro r member
    obtain ⟨batch, inside, answered⟩ := forall₂_right (mapM_some.mp all) member
    obtain ⟨other, same, good⟩ := succeeds batch inside
    cases answered.symm.trans same
    exact good
  · rintro ⟨r, joined, good⟩ batch member
    obtain ⟨answers, all, rfl⟩ := Option.map_eq_some_iff.mp joined
    rw [joinBatches_success] at good
    obtain ⟨part, inside, answered⟩ := forall₂_left (mapM_some.mp all) member
    exact ⟨part, answered, good part inside⟩

theorem mem_batched
    (joined : getStatusForTxidsBatched stc txids = some r) (good : r.status = .success) :
    result ∈ r.results ↔ ∃ batch ∈ statusBatches txids, ∃ part, stc.service batch = some part ∧ part.status = .success ∧ result ∈ part.results := by
  obtain ⟨answers, all, rfl⟩ := Option.map_eq_some_iff.mp joined
  rw [joinBatches_success] at good
  rw [joinBatches_results good, nil_append, mem_flatMap]
  have all := mapM_some.mp all
  constructor
  · rintro ⟨part, inside, member⟩
    obtain ⟨batch, of, answered⟩ := forall₂_right all inside
    exact ⟨batch, of, part, answered, good part inside, member⟩
  · rintro ⟨batch, of, part, answered, -, member⟩
    obtain ⟨other, inside, same⟩ := forall₂_left all of
    cases answered.symm.trans same
    exact ⟨part, inside, member⟩

theorem getStatusForTxids_named (names : Names services txids) :
    ∃ stc ∈ services, getStatusForTxidsBatched stc txids = some (getStatusForTxids services txids) ∧
      (getStatusForTxids services txids).status = .success ∧
        ∀ txid ∈ txids, ∃ result ∈ (getStatusForTxids services txids).results, result.txid = txid := by
  obtain ⟨before, stc, after, rfl, fails, succeeds, named⟩ := names
  obtain ⟨r, joined, good⟩ := succeeds_iff.mp succeeds
  have taken : getStatusForTxids (before ++ stc :: after) txids = r := by
    induction before with
    | nil =>
      show getStatusForTxids (stc :: after) txids = r
      simp only [getStatusForTxids, joined, good, if_true]
    | cons first rest ih =>
      have fail := mt succeeds_iff.mpr (fails first (.head _))
      have later := ih fun other member => fails other (.tail _ member)
      show getStatusForTxids (first :: (rest ++ stc :: after)) txids = r
      cases answered : getStatusForTxidsBatched first txids with
      | none => simp only [getStatusForTxids, answered, later]
      | some other =>
        have bad : other.status ≠ .success := fun good => fail ⟨other, answered, good⟩
        simp only [getStatusForTxids, answered, if_neg bad, later]
  refine ⟨stc, by simp, by rw [taken, joined], by rw [taken, good], ?_⟩
  intro txid member
  obtain ⟨batch, of, part, answered, result, inside, same⟩ := named txid member
  refine ⟨result, ?_, same⟩
  rw [taken, mem_batched joined good]
  obtain ⟨other, again, success⟩ := succeeds batch of
  cases answered.symm.trans again
  exact ⟨batch, of, part, answered, success, inside⟩

end Services

namespace ReviewRun
variable {task : TaskReviewDoubleSpends} {run next : ReviewRun}

/-- The answers name every txid that is asked about. -/
def Answered (task : TaskReviewDoubleSpends) (run : ReviewRun) (event : Int × ReviewEvent) : Prop :=
  match event.2 with
  | .runTask services | .rejected services _ =>
    reqsToReview task { run with clock := event.1 } = [] ∨
      Services.Names services ((reqsToReview task { run with clock := event.1 }).map (·.req.txid))
  | .storageChanged _ => True

theorem statusByTxid_some (found : statusByTxid gsr txid = some status) :
    ∃ result ∈ gsr.results, result.txid = txid ∧ result.status = status := by
  obtain ⟨result, last, same⟩ := Option.map_eq_some_iff.mp found
  refine ⟨result, mem_reverse.mp (mem_of_find?_eq_some last), ?_, same⟩
  have fits := find?_some last
  rw [decide_eq_true_eq] at fits
  exact fits

theorem statusByTxid_isSome (named : ∃ result ∈ gsr.results, result.txid = txid) :
    ∃ status, statusByTxid gsr txid = some status := by
  obtain ⟨result, member, same⟩ := named
  unfold statusByTxid
  cases found : gsr.results.reverse.find? (·.txid = txid) with
  | some last => exact ⟨last.status, rfl⟩
  | none =>
    have away := find?_eq_none.mp found result (mem_reverse.mpr member)
    exact absurd (decide_eq_true same) away

theorem evident_of_names
    (names : Services.Names services (reqs.map (·.req.txid)))
    (moved : row ∈ unfails (Services.getStatusForTxids services (reqs.map (·.req.txid))) reqs) : Unfailing.Evident { row, services } := by
  obtain ⟨member, unretained⟩ := mem_filter.mp moved
  obtain ⟨stc, of, joined, good, named⟩ := Services.getStatusForTxids_named names
  obtain ⟨status, found⟩ := statusByTxid_isSome (named row.req.txid (mem_map_of_mem member))
  have known : status ≠ .unknown := by
    rintro rfl
    rw [retains, found] at unretained
    cases unretained
  obtain ⟨result, inside, same, rfl⟩ := statusByTxid_some found
  obtain ⟨batch, -, part, answered, success, there⟩ := (Services.mem_batched joined good).mp inside
  exact ⟨stc, of, batch, part, answered, success, result, there, same, known⟩

theorem move_evident {services rows} (evident : ∀ unfailing ∈ run.unfailed, unfailing.Evident)
    (names : run.reqsToReview task = [] ∨ Services.Names services ((run.reqsToReview task).map (·.req.txid)))
    (of : ∀ row ∈ rows, row ∈ unfails (run.answer task services) (run.reqsToReview task)) :
    ∀ unfailing ∈ (run.move services rows).unfailed, unfailing.Evident := by
  intro unfailing member
  rcases mem_append.mp member with old | new
  · exact evident unfailing old
  · obtain ⟨row, inside, rfl⟩ := mem_map.mp new
    rcases names with none | names
    · have there := of row inside
      rw [none] at there
      cases there
    · exact evident_of_names names (of row inside)

theorem step_evident (evident : ∀ unfailing ∈ run.unfailed, unfailing.Evident) (answered : run.Answered task event)
    (stepped : run.step task event = some next) : ∀ unfailing ∈ next.unfailed, unfailing.Evident := by
  obtain ⟨now, event⟩ := event
  unfold ReviewRun.step at stepped
  split at stepped
  · cases stepped
    cases event with
    | runTask services =>
      show ∀ unfailing ∈ (ReviewRun.runTask task services { run with clock := now }).unfailed, unfailing.Evident
      unfold ReviewRun.runTask
      simp only
      split
      · exact evident
      · exact @move_evident task { run with clock := now } _ _ evident answered fun _ member => member
    | rejected services moved =>
      exact @move_evident task { run with clock := now } _ _ evident answered fun _ member => (take_sublist _ _).subset member
    | storageChanged table => exact evident
  · cases stepped

def Old (task : TaskReviewDoubleSpends) (now : Int) (row : DatedReq) : Prop := row.updated_at ≤ updatedBefore task now

instance (task : TaskReviewDoubleSpends) (now : Int) (row : DatedReq) : Decidable (Old task now row) := inferInstanceAs (Decidable (_ ≤ _))

def turns (task : TaskReviewDoubleSpends) (listed : List DatedReq) : Nat := (listed.length + task.reviewLimit - 1) / task.reviewLimit + 1

def ReviewedBy (run : ReviewRun) (place : Nat) (row : DatedReq) : Prop :=
  ∃ other later, other < place ∧ run.reviews[other]? = some later ∧ row ∈ later.reviewed

def Complete (task : TaskReviewDoubleSpends) (run : ReviewRun) : Prop :=
  ∀ place review, run.reviews[place]? = some review → ∀ row ∈ review.listed, Old task review.now row →
    place + turns task review.listed ≤ run.reviews.length → run.ReviewedBy (place + turns task review.listed) row

/-- The task alone changes the listing, the young rows are listed last, and the log that says
where to resume is among the last five. -/
def Steady (task : TaskReviewDoubleSpends) (run : ReviewRun) (event : Int × ReviewEvent) : Prop :=
  match event.2 with
  | .runTask _ => 0 < task.reviewLimit ∧
      run.table.doubleSpends.Pairwise (fun first second => Old task event.1 second → Old task event.1 first) ∧
        (run.events.find? (·.resumeOffset.isSome)).isSome = ((run.events.take 5).find? (·.resumeOffset.isSome)).isSome
  | .rejected _ _ | .storageChanged _ => False

def cursor (run : ReviewRun) : Nat := ((run.events.find? (·.resumeOffset.isSome)).bind (·.resumeOffset)).elim 0 (· + 1)

structure Kept (task : TaskReviewDoubleSpends) (run : ReviewRun) : Prop where
  resumes : ∀ log, run.events.find? (·.resumeOffset.isSome) = some log → ∃ resumeOffset row, log.resumeOffset = some resumeOffset ∧
    log.expectedProvenTxReqId = some row.req.provenTxReqId ∧ run.table.doubleSpends[resumeOffset]? = some row
  passed : ∀ row ∈ run.table.doubleSpends.take run.cursor, run.ReviewedBy run.reviews.length row
  due : ∀ place review, run.reviews[place]? = some review → ∀ row ∈ review.listed, Old task review.now row →
    run.ReviewedBy (place + turns task review.listed) row ∨
      ∃ position, run.table.doubleSpends[position]? = some row ∧ Old task run.clock row ∧ run.cursor ≤ position ∧
        position < run.cursor + (place + turns task review.listed - run.reviews.length) * task.reviewLimit

theorem Kept.complete (kept : run.Kept task) : run.Complete task := by
  intro place review is row listed old late
  rcases kept.due place review is row listed old with reviewed | ⟨position, -, -, low, high⟩
  · exact reviewed
  · rw [Nat.sub_eq_zero_of_le late, Nat.zero_mul] at high
    omega

theorem Old.later {now later row} (old : Old task now row) (le : now ≤ later) : Old task later row := by
  unfold Old updatedBefore at old ⊢
  omega

theorem filter_front {keeps : α → Bool} {rows : List α} (front : rows.Pairwise fun first second => keeps second = true → keeps first = true) :
    rows = rows.filter keeps ++ rows.filter (!keeps ·) := by
  induction rows with
  | nil => rfl
  | cons first rest ih =>
    obtain ⟨here, front⟩ := pairwise_cons.mp front
    by_cases kept : keeps first = true
    · rw [filter_cons_of_pos kept, filter_cons_of_neg (by rw [kept]; exact Bool.false_ne_true), cons_append, ← ih front]
    · have none := filter_eq_nil_iff.mpr fun row member keeps => kept (here row member keeps)
      have all : rest.filter (!keeps ·) = rest := filter_eq_self.mpr fun row member => by
        have away := filter_eq_nil_iff.mp none row member
        rw [Bool.not_eq_true] at away
        rw [away]
        rfl
      rw [filter_cons_of_neg kept, none, filter_cons_of_pos (by rw [Bool.not_eq_true] at kept; rw [kept]; rfl), all]
      rfl

theorem doubleSpends_unfail (ids) (table : ReqTable) :
    (table.unfail ids).doubleSpends = table.doubleSpends.filter (·.req.provenTxReqId ∉ ids) := by
  unfold doubleSpends unfail
  simp only [filter_filter]
  induction table.rows with
  | nil => rfl
  | cons row rest ih =>
    rw [map_cons]
    by_cases moved : row.req.provenTxReqId ∈ ids
    · have away : (setUnfail ids row).req.status = .unfail := by rw [setUnfail, if_pos moved]
      rw [filter_cons_of_neg (by simp [away]), filter_cons_of_neg (by simp [moved]), ih]
    · have stays : setUnfail ids row = row := if_neg moved
      rw [stays]
      by_cases listed : row.req.status = .doubleSpend
      · rw [filter_cons_of_pos (by simp [listed]), filter_cons_of_pos (by simp [listed, moved]), ih]
      · rw [filter_cons_of_neg (by simp [listed]), filter_cons_of_neg (by simp [listed]), ih]

theorem doubleSpends_ordered (table : ReqTable) :
    table.doubleSpends.Pairwise fun first second => first.req.provenTxReqId < second.req.provenTxReqId :=
  table.ordered.sublist filter_sublist

theorem doubleSpends_reviewed {table : ReqTable} {before reqs after} (gsr : GetStatusForTxidsResult)
    (listed : table.doubleSpends = before ++ reqs ++ after) :
    (table.unfail ((unfails gsr reqs).map (·.req.provenTxReqId))).doubleSpends = before ++ reqs.filter (retains gsr) ++ after := by
  have ordered := doubleSpends_ordered table
  rw [listed, append_assoc, pairwise_append] at ordered
  obtain ⟨-, ordered, earlier⟩ := ordered
  obtain ⟨inner, -, later⟩ := pairwise_append.mp ordered
  rw [doubleSpends_unfail, listed, filter_append, filter_append]
  have moved : ∀ {row : DatedReq}, row.req.provenTxReqId ∈ (unfails gsr reqs).map (·.req.provenTxReqId) →
      ∃ other ∈ reqs, retains gsr other = false ∧ other.req.provenTxReqId = row.req.provenTxReqId := by
    intro row member
    obtain ⟨other, inside, same⟩ := mem_map.mp member
    obtain ⟨there, lost⟩ := mem_filter.mp inside
    exact ⟨other, there, by simpa using lost, same⟩
  congr 1
  · congr 1
    · apply filter_eq_self.mpr
      intro row member
      rw [decide_eq_true_eq]
      intro lost
      obtain ⟨other, there, -, same⟩ := moved lost
      have less := earlier row member other (mem_append_left _ there)
      omega
    · apply filter_congr
      intro row member
      by_cases keeps : retains gsr row = true
      · rw [keeps, decide_eq_true_eq]
        intro lost
        obtain ⟨other, there, gone, same⟩ := moved lost
        have nodup := pairwise_map.mpr (inner.imp Nat.ne_of_lt)
        have own := inj_on_of_nodup_map nodup there member same
        rw [own, keeps] at gone
        cases gone
      · rw [Bool.not_eq_true] at keeps
        rw [keeps, decide_eq_false_iff_not, not_not]
        exact mem_map_of_mem (mem_filter.mpr ⟨member, by rw [keeps]; rfl⟩)
  · apply filter_eq_self.mpr
    intro row member
    rw [decide_eq_true_eq]
    intro lost
    obtain ⟨other, there, -, same⟩ := moved lost
    have less := later other there row member
    omega

theorem ReviewedBy.mono {reviews} (reviewed : run.ReviewedBy place row) (le : place ≤ later)
    (grown : next.reviews = run.reviews ++ reviews) : next.ReviewedBy later row := by
  obtain ⟨other, review, less, is, member⟩ := reviewed
  refine ⟨other, review, Nat.lt_of_lt_of_le less le, ?_, member⟩
  rw [grown, List.getElem?_append_left (List.getElem?_eq_some_iff.mp is).1]
  exact is

/-- The run starts after the row that was retained last. -/
theorem Kept.offset (kept : run.Kept task)
    (recent : (run.events.find? (·.resumeOffset.isSome)).isSome = ((run.events.take 5).find? (·.resumeOffset.isSome)).isSome) :
    run.offset = run.cursor := by
  unfold ReviewRun.offset cursor getLastReviewedCheckpoint
  have split := List.take_append_drop 5 run.events
  cases found : (run.events.take 5).find? (·.resumeOffset.isSome) with
  | none =>
    rw [found, Option.isSome_none, Option.isSome_eq_false_iff, Option.isNone_iff_eq_none] at recent
    rw [recent]
    rfl
  | some log =>
    have newest : run.events.find? (·.resumeOffset.isSome) = some log := by
      rw [← split, List.find?_append, found]
      rfl
    obtain ⟨resumeOffset, row, resumes, expected, listed⟩ := kept.resumes log newest
    rw [newest]
    simp only [Option.bind_some, resumes, expected, Option.map_some, offsetFor, ReqTable.page, Option.elim_some]
    have page : ((run.table.doubleSpends.drop resumeOffset).take 1) = [row] := by
      obtain ⟨inside, is⟩ := List.getElem?_eq_some_iff.mp listed
      rw [List.drop_eq_getElem_cons inside, List.take_succ_cons, List.take_zero, is]
    rw [page]
    exact if_pos rfl

theorem Kept.cursor_le (kept : run.Kept task) : run.cursor ≤ run.table.doubleSpends.length := by
  unfold cursor
  cases found : run.events.find? (·.resumeOffset.isSome) with
  | none => exact Nat.zero_le _
  | some log =>
    obtain ⟨resumeOffset, row, resumes, -, listed⟩ := kept.resumes log found
    simp only [Option.bind_some, resumes, Option.elim_some]
    exact (List.getElem?_eq_some_iff.mp listed).1

structure Pages (task : TaskReviewDoubleSpends) (run : ReviewRun) (rest : List DatedReq) : Prop where
  listed : run.table.doubleSpends = run.table.doubleSpends.take run.cursor ++ run.reqsToReview task ++ rest
  near : ∀ position row, run.table.doubleSpends[position]? = some row → Old task run.clock row → run.cursor ≤ position →
    position < run.cursor + task.reviewLimit → row ∈ run.reqsToReview task
  far : ∀ position row, run.table.doubleSpends[position]? = some row → Old task run.clock row → run.cursor + task.reviewLimit ≤ position →
    (run.reqsToReview task).length = task.reviewLimit

theorem Kept.pages (kept : run.Kept task) (front : run.table.doubleSpends.Pairwise fun first second => Old task run.clock second → Old task run.clock first)
    (recent : (run.events.find? (·.resumeOffset.isSome)).isSome = ((run.events.take 5).find? (·.resumeOffset.isSome)).isSome) :
    ∃ rest, Pages task run rest := by
  have start := kept.offset recent
  obtain ⟨page, is⟩ : ∃ page, page = run.table.page task.reviewLimit run.cursor := ⟨_, rfl⟩
  have reqs : run.reqsToReview task = page.filter (·.updated_at ≤ updatedBefore task run.clock) := by rw [reqsToReview, findReqsToReview, start, is]
  have whole : run.table.doubleSpends = run.table.doubleSpends.take run.cursor ++ (page ++ (run.table.doubleSpends.drop run.cursor).drop task.reviewLimit) := by
    rw [is, ReqTable.page, List.take_append_drop, List.take_append_drop]
  have split : page = page.filter (·.updated_at ≤ updatedBefore task run.clock) ++ page.filter fun row => !decide (row.updated_at ≤ updatedBefore task run.clock) := by
    apply filter_front
    have inner := front.sublist ((List.take_sublist task.reviewLimit _).trans (List.drop_sublist run.cursor _))
    rw [is]
    refine inner.imp fun both old => ?_
    rw [decide_eq_true_eq] at old ⊢
    exact both old
  refine ⟨(page.filter fun row => !decide (row.updated_at ≤ updatedBefore task run.clock)) ++ (run.table.doubleSpends.drop run.cursor).drop task.reviewLimit, ?_, ?_, ?_⟩
  · rw [reqs, List.append_assoc, ← List.append_assoc (page.filter _), ← split]
    exact whole
  · intro position row at' old low high
    rw [reqs, List.mem_filter]
    refine ⟨?_, decide_eq_true old⟩
    rw [is, ReqTable.page]
    apply List.mem_of_getElem? (i := position - run.cursor)
    rw [List.getElem?_take_of_lt (by omega), List.getElem?_drop, show run.cursor + (position - run.cursor) = position by omega]
    exact at'
  · intro position row at' old high
    have inside := (List.getElem?_eq_some_iff.mp at').1
    have all : page.filter (·.updated_at ≤ updatedBefore task run.clock) = page := by
      apply List.filter_eq_self.mpr
      intro other member
      rw [is, ReqTable.page] at member
      obtain ⟨index, there⟩ := List.mem_iff_getElem?.mp member
      have low : index < task.reviewLimit := by
        have bound := (List.getElem?_eq_some_iff.mp there).1
        rw [List.length_take] at bound
        omega
      rw [List.getElem?_take_of_lt low, List.getElem?_drop] at there
      obtain ⟨first, rfl⟩ := List.getElem?_eq_some_iff.mp there
      obtain ⟨second, rfl⟩ := List.getElem?_eq_some_iff.mp at'
      exact decide_eq_true (List.pairwise_iff_getElem.mp front _ _ first second (by omega) old)
    rw [reqs, all, is, ReqTable.page, List.length_take, List.length_drop]
    omega

structure Reviews (task : TaskReviewDoubleSpends) (retained rest : List DatedReq) (run next : ReviewRun) : Prop where
  listed : next.table.doubleSpends = run.table.doubleSpends.take run.cursor ++ retained ++ rest
  cursor : next.cursor = run.cursor + retained.length
  reviews : next.reviews = run.reviews ++ [{ now := run.clock, listed := run.table.doubleSpends, reviewed := run.reqsToReview task }]
  retained : retained.Sublist (run.reqsToReview task)
  clock : next.clock = run.clock
  resumes : ∀ log, next.events.find? (·.resumeOffset.isSome) = some log → ∃ resumeOffset row, log.resumeOffset = some resumeOffset ∧
    log.expectedProvenTxReqId = some row.req.provenTxReqId ∧ next.table.doubleSpends[resumeOffset]? = some row

theorem Kept.reviews {rest : List DatedReq} (kept : run.Kept task) (pages : Pages task run rest) (start : run.offset = run.cursor)
    (services) : ∃ retained, Reviews task retained rest run (run.runTask task services) := by
  unfold ReviewRun.runTask
  simp only
  split
  next none =>
    refine ⟨[], ?_, rfl, rfl, nil_sublist _, rfl, kept.resumes⟩
    have listed := pages.listed
    rw [none] at listed
    exact listed
  next some =>
    obtain ⟨retained, is⟩ : ∃ retained, retained = (run.reqsToReview task).filter (retains (run.answer task services)) := ⟨_, rfl⟩
    have listed := doubleSpends_reviewed (run.answer task services) pages.listed
    rw [← is] at listed
    have length : (run.table.doubleSpends.take run.cursor).length = run.cursor := by
      rw [length_take]
      exact Nat.min_eq_left kept.cursor_le
    refine ⟨retained, listed, ?_, rfl, is ▸ filter_sublist, rfl, ?_⟩
    · cases last : retained.getLast? with
      | none =>
        rw [getLast?_eq_none_iff] at last
        simp only [cursor, find?_cons, checkpoint, ← is, last, getLast?_nil, Option.map_none, Option.isSome_none, length_nil]
        rfl
      | some row =>
        have some := length_pos_of_mem (mem_of_getLast? last)
        simp only [cursor, find?_cons, checkpoint, ← is, last, Option.map_some, Option.isSome_some, Option.bind_some, Option.elim_some]
        rw [start]
        unfold cursor
        omega
    · intro log found
      cases last : retained.getLast? with
      | none =>
        simp only [find?_cons, checkpoint, ← is, last, Option.map_none, Option.isSome_none] at found
        obtain ⟨resumeOffset, row, resumes, expected, there⟩ := kept.resumes log found
        refine ⟨resumeOffset, row, resumes, expected, ?_⟩
        have before : resumeOffset < run.cursor := by
          rw [cursor, found, Option.bind_some, resumes]
          exact Nat.lt_succ_self _
        show (unfail ((unfails (run.answer task services) (run.reqsToReview task)).map (·.req.provenTxReqId)) run.table).doubleSpends[_]? = _
        rw [listed, append_assoc, getElem?_append_left (by rw [length]; exact before), getElem?_take_of_lt before]
        exact there
      | some row =>
        simp only [find?_cons, checkpoint, ← is, last, Option.map_some, Option.isSome_some, Option.some.injEq] at found
        subst found
        have some := length_pos_of_mem (mem_of_getLast? last)
        refine ⟨_, row, rfl, rfl, ?_⟩
        show (unfail ((unfails (run.answer task services) (run.reqsToReview task)).map (·.req.provenTxReqId)) run.table).doubleSpends[_]? = _
        rw [listed, start, getElem?_append_left (by rw [length_append, length]; omega), getElem?_append_right (by rw [length]; omega), length,
          show run.cursor + retained.length - 1 - run.cursor = retained.length - 1 by omega, ← getLast?_eq_getElem?]
        exact last

theorem Kept.runTask (kept : run.Kept task) (some : 0 < task.reviewLimit)
    (front : run.table.doubleSpends.Pairwise fun first second => Old task run.clock second → Old task run.clock first)
    (recent : (run.events.find? (·.resumeOffset.isSome)).isSome = ((run.events.take 5).find? (·.resumeOffset.isSome)).isSome) :
    (run.runTask task services).Kept task := by
  obtain ⟨rest, pages⟩ := kept.pages front recent
  obtain ⟨retained, reviews⟩ := kept.reviews pages (kept.offset recent) services
  generalize run.runTask task services = next at reviews
  have length : (run.table.doubleSpends.take run.cursor).length = run.cursor := by
    rw [List.length_take]
    exact Nat.min_eq_left kept.cursor_le
  have grown : next.reviews.length = run.reviews.length + 1 := by rw [reviews.reviews, List.length_append, List.length_singleton]
  have now : ∀ row ∈ run.reqsToReview task, ∀ place, run.reviews.length < place → next.ReviewedBy place row := by
    intro row member place late
    refine ⟨run.reviews.length, { now := run.clock, listed := run.table.doubleSpends, reviewed := run.reqsToReview task }, late, ?_, member⟩
    rw [reviews.reviews]
    exact List.getElem?_concat_length
  -- An old row that is not passed is reviewed now, or comes a page nearer.
  have nearer : ∀ place turns position row, run.table.doubleSpends[position]? = Option.some row → Old task run.clock row → run.cursor ≤ position →
      position < run.cursor + (place + turns - run.reviews.length) * task.reviewLimit → next.ReviewedBy (place + turns) row ∨
        ∃ position, next.table.doubleSpends[position]? = Option.some row ∧ Old task next.clock row ∧ next.cursor ≤ position ∧
          position < next.cursor + (place + turns - next.reviews.length) * task.reviewLimit := by
    intro place turns position row there old low high
    obtain ⟨left, is⟩ : ∃ left, left = place + turns - run.reviews.length := ⟨_, rfl⟩
    rw [← is] at high
    cases left with
    | zero =>
      rw [Nat.zero_mul] at high
      omega
    | succ left =>
      by_cases here : position < run.cursor + task.reviewLimit
      · exact .inl (now row (pages.near position row there old low here) _ (by omega))
      · have page := pages.far position row there old (by omega)
        refine .inr ⟨run.cursor + retained.length + (position - run.cursor - task.reviewLimit), ?_, ?_, ?_, ?_⟩
        · rw [reviews.listed, List.getElem?_append_right (by rw [List.length_append, length]; omega), List.length_append, length]
          rw [pages.listed, List.getElem?_append_right (by rw [List.length_append, length, page]; omega), List.length_append, length, page] at there
          rw [← there]
          congr 1
          omega
        · rw [reviews.clock]
          exact old
        · rw [reviews.cursor]
          omega
        · rw [reviews.cursor, grown, show place + turns - (run.reviews.length + 1) = left by omega]
          rw [Nat.succ_mul] at high
          omega
  refine ⟨reviews.resumes, ?_, ?_⟩
  · intro row member
    rw [reviews.listed, reviews.cursor, List.take_append_of_le_length (by rw [List.length_append, length]),
      List.take_of_length_le (by rw [List.length_append, length])] at member
    rcases List.mem_append.mp member with old | new
    · exact (kept.passed row old).mono (by omega) reviews.reviews
    · exact now row (reviews.retained.subset new) _ (by omega)
  · intro place review is row listed old
    rw [reviews.reviews, List.getElem?_append] at is
    split at is
    next before =>
      rcases kept.due place review is row listed old with reviewed | ⟨position, there, aged, low, high⟩
      · exact .inl (reviewed.mono (Nat.le_refl _) reviews.reviews)
      · exact nearer place _ position row there aged low high
    next after =>
      rw [List.getElem?_singleton] at is
      split at is
      next last =>
        cases is
        have same : place = run.reviews.length := by omega
        subst same
        replace listed : row ∈ run.table.doubleSpends := listed
        obtain ⟨position, there⟩ := List.mem_iff_getElem?.mp listed
        have inside := (List.getElem?_eq_some_iff.mp there).1
        by_cases low : run.cursor ≤ position
        · apply nearer _ _ position row there old low
          have enough : run.table.doubleSpends.length ≤ turns task run.table.doubleSpends * task.reviewLimit := by
            have divided := Nat.div_add_mod (run.table.doubleSpends.length + task.reviewLimit - 1) task.reviewLimit
            have less := Nat.mod_lt (run.table.doubleSpends.length + task.reviewLimit - 1) some
            rw [turns, Nat.succ_mul, Nat.mul_comm]
            omega
          rw [Nat.add_sub_cancel_left]
          show position < run.cursor + turns task run.table.doubleSpends * task.reviewLimit
          omega
        · refine .inl ((kept.passed row ?_).mono (by omega) reviews.reviews)
          apply List.mem_of_getElem? (i := position)
          rw [List.getElem?_take_of_lt (by omega)]
          exact there
      next => cases is

theorem Kept.later (kept : run.Kept task) (le : run.clock ≤ now) : Kept task { run with clock := now } := by
  refine ⟨kept.resumes, kept.passed, ?_⟩
  intro place review is row listed old
  rcases kept.due place review is row listed old with reviewed | ⟨position, there, aged, low, high⟩
  · exact .inl reviewed
  · exact .inr ⟨position, there, aged.later le, low, high⟩

theorem Kept.step {event} (kept : run.Kept task) (steady : run.Steady task event) (stepped : run.step task event = some next) :
    next.Kept task := by
  obtain ⟨now, event⟩ := event
  unfold ReviewRun.step at stepped
  split at stepped
  next le =>
    cases stepped
    cases event with
    | runTask services =>
      obtain ⟨some, front, recent⟩ := steady
      exact (kept.later le).runTask some front recent
    | rejected services moved => exact steady.elim
    | storageChanged table => exact steady.elim
  next => cases stepped

theorem Kept.new (task) (table) : Kept task { table } := by
  refine ⟨?_, ?_, ?_⟩
  · intro log found
    cases found
  · intro row member
    cases member
  · intro place review is
    cases is

def listedReq (provenTxReqId : Nat) (txid : String) (updated_at : Int) : DatedReq where
  req := {
    provenTxReqId, provenTxId := none, status := .doubleSpend, attempts := 0, notified := false, txid, batch := none, history := [], notify := [],
    rawTx := [], inputBEEF := none, wasBroadcast := true, rebroadcastAttempts := 0 }
  updated_at

/-- An old request that a provider does not know. -/
def oldTable : ReqTable where
  rows := [listedReq 1 "ab" 0]
  ordered := List.pairwise_singleton _ _

def unknowing : StatusProvider where
  providerName := "provider"
  service txids := some { name := "provider", status := .success, results := txids.map fun txid => { txid, depth := none, status := .unknown } }

def mixedTable : ReqTable where
  rows := [listedReq 1 "ab" 3600000, listedReq 2 "cd" 0]
  ordered := by decide

def hidingRun : Option ReviewRun :=
  runEvents (ReviewRun.step { reviewLimit := 1 }) { table := mixedTable }
    [(3600001, .runTask [unknowing]), (3600002, .runTask [unknowing]), (3600003, .runTask [unknowing])]

end ReviewRun
end WalletToolbox

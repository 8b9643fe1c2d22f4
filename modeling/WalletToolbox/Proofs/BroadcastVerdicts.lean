import WalletToolbox.Messaging.BroadcastConsumer

/-! The two judgements of the answers that providers give about a transaction. The
consumer of the broadcast stream takes them in order and stops at the first that settles;
the poster counts them and ranks the counts. Both look at one answer of each provider. -/

namespace WalletToolbox
open BroadcastStorageAdapter List

def answersAbout (results : List PostBeefResult) (txid : String) : List (PostBeefResult × PostTxResultForTxid) :=
  results.filterMap fun result => (result.txidResults.find? (·.txid = txid)).map (result, ·)

inductive AnswerKind where
  | success | doubleSpend | serviceError | statusError
deriving DecidableEq, Repr

def PostTxResultForTxid.kind (result : PostTxResultForTxid) : AnswerKind :=
  if result.success then .success
  else if result.doubleSpend then .doubleSpend
  else if result.serviceError then .serviceError
  else .statusError

def serviceErrorText (answer : PostBeefResult × PostTxResultForTxid) : String := (answer.2.data.or answer.1.error).getD "\"\""

def stalls (answer : PostBeefResult × PostTxResultForTxid) : Bool :=
  answer.2.kind = .serviceError && (saysRateLimit (serviceErrorText answer) || saysTimeout (serviceErrorText answer))

inductive OutcomeClass where
  | accepted | doubleSpend | rejected | unsettled
deriving DecidableEq, Repr

def reportsDoubleSpend (results : List PostBeefResult) (txid : String) : Bool :=
  results.any fun result => result.txidResults.any fun txidResult => txidResult.txid = txid && txidResult.doubleSpend

def BroadcastProviderOutcome.toClass (doubleSpend : Bool) : BroadcastProviderOutcome → OutcomeClass
  | .accepted | .seen | .alreadySeen => .accepted
  | .rejectedTerminal => if doubleSpend then .doubleSpend else .rejected
  | .rejectedRetryable | .rateLimited | .timeout | .unknown | .malformed => .unsettled

def outcomeClass (results : List PostBeefResult) (txid : String) : OutcomeClass :=
  (classifyBroadcastResults results txid).toClass (reportsDoubleSpend results txid)

def AggregateStatus.toClass : AggregateStatus → OutcomeClass
  | .success => .accepted
  | .doubleSpend => .doubleSpend
  | .invalidTx => .rejected
  | .serviceError => .unsettled

section
variable {results other : List PostBeefResult} {txid : String}

def countOf (kind : AnswerKind) (results : List PostBeefResult) (txid : String) : Nat :=
  (answersAbout results txid).countP fun answer => answer.2.kind = kind

structure Tallied (before after : AggregatePostBeefTxResult) (results : List PostBeefResult) : Prop where
  txid : after.txid = before.txid
  success : after.successCount = before.successCount + countOf .success results before.txid
  doubleSpend : after.doubleSpendCount = before.doubleSpendCount + countOf .doubleSpend results before.txid
  statusError : after.statusErrorCount = before.statusErrorCount + countOf .statusError results before.txid

theorem tallyTxidResult_tallied (aggregate) (result) :
    Tallied aggregate (tallyTxidResult aggregate result) [result] := by
  unfold tallyTxidResult
  split
  next none => constructor <;> simp [countOf, answersAbout, none]
  next answer found =>
    have alone : answersAbout [result] aggregate.txid = [(result, answer)] := by simp [answersAbout, found]
    split
    next success => constructor <;> simp [countOf, alone, PostTxResultForTxid.kind, success]
    next failed =>
      split
      next spent => constructor <;> simp [countOf, alone, PostTxResultForTxid.kind, failed, spent]
      next fresh =>
        split
        next service => constructor <;> simp [countOf, alone, PostTxResultForTxid.kind, failed, fresh, service]
        next status => constructor <;> simp [countOf, alone, PostTxResultForTxid.kind, failed, fresh, status]

theorem foldl_tallied (aggregate) (results) :
    Tallied aggregate (results.foldl tallyTxidResult aggregate) results := by
  induction results generalizing aggregate with
  | nil => exact ⟨rfl, rfl, rfl, rfl⟩
  | cons first rest ih =>
    have here := tallyTxidResult_tallied aggregate first
    have later := ih (tallyTxidResult aggregate first)
    have split : ∀ kind, countOf kind (first :: rest) aggregate.txid =
        countOf kind [first] aggregate.txid + countOf kind rest aggregate.txid := by
      intro kind
      rw [countOf, countOf, countOf, ← countP_append]
      apply congrArg (countP _)
      exact filterMap_append (l := [first])
    have same := here.txid
    refine ⟨later.txid.trans same, ?_, ?_, ?_⟩
    · rw [foldl_cons, later.success, here.success, same, split]
      omega
    · rw [foldl_cons, later.doubleSpend, here.doubleSpend, same, split]
      omega
    · rw [foldl_cons, later.statusError, here.statusError, same, split]
      omega

def AnsweredAs (kind : AnswerKind) (results : List PostBeefResult) (txid : String) : Prop :=
  ∃ answer ∈ answersAbout results txid, answer.2.kind = kind

theorem countOf_pos : 0 < countOf kind results txid ↔ AnsweredAs kind results txid := by
  rw [countOf, countP_pos_iff]
  simp only [decide_eq_true_eq, AnsweredAs]

open Classical in
theorem aggregate_status (results) (txid : String) :
    (aggregatePostBeefResult results txid).status =
      if AnsweredAs .doubleSpend results txid then .doubleSpend
      else if AnsweredAs .success results txid then .success
      else if AnsweredAs .statusError results txid then .invalidTx
      else .serviceError := by
  have tallied := foldl_tallied ⟨txid, .success, 0, 0, 0, 0, [], []⟩ results
  have success := tallied.success
  have doubleSpend := tallied.doubleSpend
  have statusError := tallied.statusError
  simp only [Nat.zero_add] at success doubleSpend statusError
  show aggregateStatus (tallyTxidResults txid results) = _
  rw [aggregateStatus, tallyTxidResults]
  simp only [success, doubleSpend, statusError, ← countOf_pos]
  have either : countOf .doubleSpend results txid = 0 ∨ 0 < countOf .doubleSpend results txid := by omega
  rcases either with none | some
  · simp [none]
  · have spent : countOf .doubleSpend results txid ≠ 0 := by omega
    simp [some, spent]

def settles (answer : PostBeefResult × PostTxResultForTxid) : Option BroadcastProviderOutcome :=
  match classifyTxResult answer.1 answer.2 with
  | .settled outcome => some outcome
  | .serviceError | .statusError => none

def undecided (sawServiceError sawStatusError : Bool) : BroadcastProviderOutcome :=
  if sawServiceError then .rejectedRetryable else if sawStatusError then .rejectedTerminal else .unknown

theorem classifyTxResult_eq (answer : PostBeefResult × PostTxResultForTxid) :
    classifyTxResult answer.1 answer.2 =
      match answer.2.kind with
      | .success => .settled (if answer.2.alreadyKnown then .alreadySeen else if answer.1.success then .accepted else .seen)
      | .doubleSpend => .settled .rejectedTerminal
      | .serviceError =>
        if saysRateLimit (serviceErrorText answer) then .settled .rateLimited
        else if saysTimeout (serviceErrorText answer) then .settled .timeout
        else .serviceError
      | .statusError => .statusError := by
  unfold classifyTxResult PostTxResultForTxid.kind
  by_cases success : answer.2.success = true
  · by_cases known : answer.2.alreadyKnown = true <;> simp [success, known]
  · simp only [success, false_and, if_false, Bool.false_eq_true]
    by_cases spent : answer.2.doubleSpend = true
    · simp only [spent, if_true]
    · simp only [spent, if_false, Bool.false_eq_true]
      by_cases service : answer.2.serviceError = true
      · simp only [service, if_true]
        rfl
      · simp only [service, if_false, Bool.false_eq_true]

theorem kind_of_serviceError {answer : PostBeefResult × PostTxResultForTxid}
    (is : classifyTxResult answer.1 answer.2 = .serviceError) : answer.2.kind = .serviceError := by
  rw [classifyTxResult_eq] at is
  cases kind : answer.2.kind with
  | serviceError => rfl
  | success => rw [kind] at is; cases is
  | doubleSpend => rw [kind] at is; cases is
  | statusError => rw [kind] at is; cases is

theorem kind_of_statusError {answer : PostBeefResult × PostTxResultForTxid}
    (is : classifyTxResult answer.1 answer.2 = .statusError) : answer.2.kind = .statusError := by
  rw [classifyTxResult_eq] at is
  cases kind : answer.2.kind with
  | statusError => rfl
  | success => rw [kind] at is; cases is
  | doubleSpend => rw [kind] at is; cases is
  | serviceError =>
    rw [kind] at is
    simp only at is
    split at is
    · cases is
    · split at is <;> cases is

theorem answersAbout_cons_none (none : first.txidResults.find? (·.txid = txid) = none) :
    answersAbout (first :: rest) txid = answersAbout rest txid := by
  simp [answersAbout, none]

theorem answersAbout_cons_some
    (found : first.txidResults.find? (·.txid = txid) = some answer) :
    answersAbout (first :: rest) txid = (first, answer) :: answersAbout rest txid := by
  simp [answersAbout, found]

theorem classifyRest_eq (sawServiceError sawStatusError : Bool) (results : List PostBeefResult) :
    classifyRest txid sawServiceError sawStatusError results =
      ((answersAbout results txid).findSome? settles).getD
        (undecided (sawServiceError || (answersAbout results txid).any fun answer => answer.2.kind = .serviceError)
          (sawStatusError || (answersAbout results txid).any fun answer => answer.2.kind = .statusError)) := by
  induction results generalizing sawServiceError sawStatusError with
  | nil => simp [classifyRest, answersAbout, undecided]
  | cons first rest ih =>
    rw [classifyRest]
    cases found : first.txidResults.find? (·.txid = txid) with
    | none =>
      rw [answersAbout_cons_none found]
      exact ih sawServiceError sawStatusError
    | some answer =>
      rw [answersAbout_cons_some found]
      simp only
      cases judged : classifyTxResult first answer with
      | settled outcome => simp [settles, judged]
      | serviceError =>
        have kind := @kind_of_serviceError (first, answer) judged
        simp only
        rw [ih]
        simp [settles, judged, kind]
      | statusError =>
        have kind := @kind_of_statusError (first, answer) judged
        simp only
        rw [ih]
        simp [settles, judged, kind]

theorem settles_success (is : answer.2.kind = .success) (spent : Bool) :
    ∃ outcome, settles answer = some outcome ∧ outcome.toClass spent = .accepted := by
  rw [settles, classifyTxResult_eq, is]
  refine ⟨_, rfl, ?_⟩
  by_cases known : answer.2.alreadyKnown = true
  · rw [if_pos known]
    rfl
  · rw [if_neg known]
    split <;> rfl

theorem settles_doubleSpend (is : answer.2.kind = .doubleSpend) :
    settles answer = some .rejectedTerminal := by
  rw [settles, classifyTxResult_eq, is]

theorem doubleSpend_of_kind {result : PostTxResultForTxid} (is : result.kind = .doubleSpend) : result.doubleSpend = true := by
  unfold PostTxResultForTxid.kind at is
  split at is
  · cases is
  · split at is
    · assumption
    · split at is <;> cases is

theorem settles_stalls (is : stalls answer = true) (spent : Bool) :
    ∃ outcome, settles answer = some outcome ∧ outcome.toClass spent = .unsettled := by
  obtain ⟨kind, text⟩ := Bool.and_eq_true_iff.mp is
  rw [settles, classifyTxResult_eq, of_decide_eq_true kind]
  simp only
  by_cases limited : saysRateLimit (serviceErrorText answer) = true
  · rw [if_pos limited]
    exact ⟨_, rfl, rfl⟩
  · have late := (Bool.or_eq_true_iff.mp text).resolve_left limited
    rw [if_neg limited, if_pos late]
    exact ⟨_, rfl, rfl⟩

theorem settles_some (is : settles answer = some outcome) :
    answer.2.kind = .success ∨ answer.2.kind = .doubleSpend ∨ stalls answer = true := by
  rw [settles, classifyTxResult_eq] at is
  cases kind : answer.2.kind with
  | success => exact .inl rfl
  | doubleSpend => exact .inr (.inl rfl)
  | statusError =>
    rw [kind] at is
    cases is
  | serviceError =>
    right; right
    have named : (saysRateLimit (serviceErrorText answer) || saysTimeout (serviceErrorText answer)) = true := by
      by_contra calm
      obtain ⟨limit, late⟩ := not_or.mp fun either => calm (Bool.or_eq_true_iff.mpr either)
      rw [kind] at is
      simp only at is
      rw [if_neg limit, if_neg late] at is
      cases is
    rw [stalls, named, kind]
    rfl

theorem answersAbout_perm (same : other.Perm results) : (answersAbout other txid).Perm (answersAbout results txid) :=
  same.filterMap _

theorem AnsweredAs.perm (same : other.Perm results) : AnsweredAs kind other txid ↔ AnsweredAs kind results txid := by
  unfold AnsweredAs
  simp only [(answersAbout_perm same).mem_iff]

theorem reportsDoubleSpend_perm (same : other.Perm results) : reportsDoubleSpend other txid = reportsDoubleSpend results txid := by
  rw [Bool.eq_iff_iff, reportsDoubleSpend, reportsDoubleSpend, any_eq_true, any_eq_true]
  simp only [same.mem_iff]

theorem aggregate_status_perm (same : other.Perm results) :
    (aggregatePostBeefResult other txid).status = (aggregatePostBeefResult results txid).status := by
  rw [aggregate_status, aggregate_status, AnsweredAs.perm same, AnsweredAs.perm same, AnsweredAs.perm same]

theorem AnsweredAs.reports (spent : AnsweredAs .doubleSpend results txid) : reportsDoubleSpend results txid = true := by
  obtain ⟨answer, member, kind⟩ := spent
  obtain ⟨result, isResult, found⟩ := mem_filterMap.mp member
  obtain ⟨txidResult, first, rfl⟩ := Option.map_eq_some_iff.mp found
  rw [reportsDoubleSpend, any_eq_true]
  refine ⟨result, isResult, any_eq_true.mpr ⟨txidResult, mem_of_find?_eq_some first, ?_⟩⟩
  have named := find?_some first
  rw [Bool.and_eq_true_iff]
  exact ⟨named, doubleSpend_of_kind kind⟩

theorem exists_answered_first (member : answer ∈ answersAbout results txid) :
    ∃ other : List PostBeefResult, other.Perm results ∧ (answersAbout other txid).head? = some answer := by
  obtain ⟨result, isResult, found⟩ := mem_filterMap.mp member
  obtain ⟨before, after, rfl⟩ := append_of_mem isResult
  refine ⟨result :: (before ++ after), perm_middle.symm, ?_⟩
  rw [answersAbout, filterMap_cons, found]
  rfl

theorem outcomeClass_first
    (first : (answersAbout results txid).head? = some answer) (settled : settles answer = some outcome) :
    outcomeClass results txid = outcome.toClass (reportsDoubleSpend results txid) := by
  obtain ⟨rest, all⟩ := head?_eq_some_iff.mp first
  rw [outcomeClass, classifyBroadcastResults, classifyRest_eq, all, findSome?_cons, settled]
  rfl

/-- The judgements agree, whatever the order. -/
def JudgeAlike (results : List PostBeefResult) (txid : String) : Prop :=
  (∀ other : List PostBeefResult, other.Perm results → outcomeClass other txid = outcomeClass results txid) ∧
    ∀ status : AggregateStatus, outcomeClass results txid = status.toClass ↔ (aggregatePostBeefResult results txid).status = status

theorem AggregateStatus.toClass_inj {status other : AggregateStatus} (same : status.toClass = other.toClass) : status = other := by
  cases status <;> cases other <;> first | rfl | cases same

theorem judgeAlike_iff_all : JudgeAlike results txid ↔
    ∀ other : List PostBeefResult, other.Perm results → outcomeClass other txid = (aggregatePostBeefResult results txid).status.toClass := by
  constructor
  · intro ⟨stable, agrees⟩ other same
    rw [stable other same]
    exact (agrees _).mpr rfl
  · intro all
    have here := all results (.refl _)
    refine ⟨fun other same => (all other same).trans here.symm, fun status => ?_⟩
    rw [here]
    constructor
    · intro same
      exact AggregateStatus.toClass_inj same
    · intro same
      rw [same]

/-- What settles is one and the same, and nothing but the rejections is in their way. -/
structure OneVerdict (results : List PostBeefResult) (txid : String) : Prop where
  spent : AnsweredAs .doubleSpend results txid → ¬AnsweredAs .success results txid
  settled : AnsweredAs .doubleSpend results txid ∨ AnsweredAs .success results txid →
    ∀ answer ∈ answersAbout results txid, stalls answer = false
  rejected : ¬AnsweredAs .doubleSpend results txid → ¬AnsweredAs .success results txid → AnsweredAs .statusError results txid →
    ¬AnsweredAs .serviceError results txid ∧ reportsDoubleSpend results txid = false

theorem OneVerdict.perm (one : OneVerdict results txid) (same : other.Perm results) : OneVerdict other txid := by
  constructor
  · rw [AnsweredAs.perm same, AnsweredAs.perm same]
    exact one.spent
  · rw [AnsweredAs.perm same, AnsweredAs.perm same]
    intro either answer member
    exact one.settled either answer ((answersAbout_perm same).mem_iff.mp member)
  · rw [AnsweredAs.perm same, AnsweredAs.perm same, AnsweredAs.perm same, AnsweredAs.perm same, reportsDoubleSpend_perm same]
    exact one.rejected

theorem outcomeClass_cases (results) (txid : String) :
    (∃ answer ∈ answersAbout results txid, ∃ outcome, settles answer = some outcome ∧
        outcomeClass results txid = outcome.toClass (reportsDoubleSpend results txid)) ∨
      (∀ answer ∈ answersAbout results txid, settles answer = none) ∧
        outcomeClass results txid =
          (undecided ((answersAbout results txid).any fun answer => answer.2.kind = .serviceError)
            ((answersAbout results txid).any fun answer => answer.2.kind = .statusError)).toClass (reportsDoubleSpend results txid) := by
  cases first : (answersAbout results txid).findSome? settles with
  | some outcome =>
    obtain ⟨answer, member, settled⟩ := exists_of_findSome?_eq_some first
    refine .inl ⟨answer, member, outcome, settled, ?_⟩
    rw [outcomeClass, classifyBroadcastResults, classifyRest_eq, first]
    rfl
  | none =>
    refine .inr ⟨findSome?_eq_none_iff.mp first, ?_⟩
    rw [outcomeClass, classifyBroadcastResults, classifyRest_eq, first]
    simp only [Bool.false_or, Option.getD_none]

theorem any_kind_eq_true (answered : AnsweredAs kind results txid) :
    ((answersAbout results txid).any fun answer => answer.2.kind = kind) = true := by
  obtain ⟨answer, member, is⟩ := answered
  exact any_eq_true.mpr ⟨answer, member, decide_eq_true is⟩

theorem any_kind_eq_false (absent : ¬AnsweredAs kind results txid) :
    ((answersAbout results txid).any fun answer => answer.2.kind = kind) = false := by
  rw [any_eq_false]
  intro answer member is
  exact absent ⟨answer, member, of_decide_eq_true is⟩

theorem OneVerdict.outcomeClass (one : OneVerdict results txid) :
    outcomeClass results txid = (aggregatePostBeefResult results txid).status.toClass := by
  rw [aggregate_status]
  by_cases spent : AnsweredAs .doubleSpend results txid
  · rw [if_pos spent]
    obtain ⟨answer, member, outcome, settled, same⟩ | ⟨none, -⟩ := outcomeClass_cases results txid
    · rcases settles_some settled with success | double | stalled
      · exact absurd ⟨answer, member, success⟩ (one.spent spent)
      · rw [settles_doubleSpend double] at settled
        cases settled
        rw [same, spent.reports]
        rfl
      · rw [one.settled (.inl spent) answer member] at stalled
        cases stalled
    · obtain ⟨answer, member, double⟩ := spent
      have nothing := none answer member
      rw [settles_doubleSpend double] at nothing
      cases nothing
  rw [if_neg spent]
  by_cases success : AnsweredAs .success results txid
  · rw [if_pos success]
    obtain ⟨answer, member, outcome, settled, same⟩ | ⟨none, -⟩ := outcomeClass_cases results txid
    · rcases settles_some settled with accepted | double | stalled
      · obtain ⟨other, settles', accepts⟩ := settles_success accepted (reportsDoubleSpend results txid)
        cases settled.symm.trans settles'
        rw [same, accepts]
        rfl
      · exact absurd ⟨answer, member, double⟩ spent
      · rw [one.settled (.inr success) answer member] at stalled
        cases stalled
    · obtain ⟨answer, member, accepted⟩ := success
      obtain ⟨other, settles', -⟩ := settles_success accepted false
      rw [none answer member] at settles'
      cases settles'
  rw [if_neg success]
  obtain ⟨answer, member, outcome, settled, same⟩ | ⟨none, same⟩ := outcomeClass_cases results txid
  · -- Only an error that names a delay can settle, and no rejection is beside it.
    rcases settles_some settled with accepted | double | stalled
    · exact absurd ⟨answer, member, accepted⟩ success
    · exact absurd ⟨answer, member, double⟩ spent
    · have refused : ¬AnsweredAs .statusError results txid := by
        intro refused
        exact (one.rejected spent success refused).1 ⟨answer, member, of_decide_eq_true (Bool.and_eq_true_iff.mp stalled).1⟩
      obtain ⟨other, settles', unsettled⟩ := settles_stalls stalled (reportsDoubleSpend results txid)
      cases settled.symm.trans settles'
      rw [if_neg refused, same, unsettled]
      rfl
  · rw [same]
    by_cases refused : AnsweredAs .statusError results txid
    · obtain ⟨served, reported⟩ := one.rejected spent success refused
      rw [if_pos refused, any_kind_eq_false served, any_kind_eq_true refused, reported]
      rfl
    · rw [if_neg refused, any_kind_eq_false refused]
      cases (answersAbout results txid).any fun answer => answer.2.kind = .serviceError <;> rfl

theorem JudgeAlike.first (alike : JudgeAlike results txid)
    (member : answer ∈ answersAbout results txid) (settled : settles answer = some outcome) :
    outcome.toClass (reportsDoubleSpend results txid) = (aggregatePostBeefResult results txid).status.toClass := by
  obtain ⟨other, same, first⟩ := exists_answered_first member
  rw [← judgeAlike_iff_all.mp alike other same, ← reportsDoubleSpend_perm same]
  exact (outcomeClass_first first settled).symm

theorem JudgeAlike.oneVerdict (alike : JudgeAlike results txid) : OneVerdict results txid := by
  have status := aggregate_status results txid
  have calm : AnsweredAs .doubleSpend results txid ∨ AnsweredAs .success results txid ∨ AnsweredAs .statusError results txid →
      ∀ answer ∈ answersAbout results txid, stalls answer = false := by
    intro decided answer member
    by_contra stalled
    obtain ⟨outcome, settled, unsettled⟩ := settles_stalls (Bool.eq_true_of_not_eq_false stalled) (reportsDoubleSpend results txid)
    have same := alike.first member settled
    rw [unsettled, status] at same
    split at same
    · cases same
    · split at same
      · cases same
      · split at same
        · cases same
        · next spent success refused => exact decided.elim spent fun rest => rest.elim success refused
  constructor
  · intro spent ⟨answer, member, accepted⟩
    obtain ⟨outcome, settled, accepts⟩ := settles_success accepted (reportsDoubleSpend results txid)
    have same := alike.first member settled
    rw [accepts, status, if_pos spent] at same
    cases same
  · intro either
    exact calm (either.imp_right .inl)
  · intro spent success refused
    have agrees := judgeAlike_iff_all.mp alike results (.refl _)
    rw [status, if_neg spent, if_neg success, if_pos refused] at agrees
    obtain ⟨answer, member, outcome, settled, -⟩ | ⟨-, same⟩ := outcomeClass_cases results txid
    · rcases settles_some settled with accepted | double | stalled
      · exact absurd ⟨answer, member, accepted⟩ success
      · exact absurd ⟨answer, member, double⟩ spent
      · rw [calm (.inr (.inr refused)) answer member] at stalled
        cases stalled
    · rw [same] at agrees
      constructor
      · intro served
        rw [any_kind_eq_true served] at agrees
        cases agrees
      · by_contra reported
        rw [Bool.eq_true_of_not_eq_false reported, any_kind_eq_true refused] at agrees
        generalize ((answersAbout results txid).any fun answer => answer.2.kind = .serviceError) = served at agrees
        cases served <;> cases agrees

/-- The consumer and the poster agree in every order of the results just when the answers have one verdict. -/
theorem judgements_agree_iff (results : List PostBeefResult) (txid : String) : JudgeAlike results txid ↔ OneVerdict results txid := by
  constructor
  · exact JudgeAlike.oneVerdict
  · intro one
    apply judgeAlike_iff_all.mpr
    intro other same
    rw [← aggregate_status_perm same]
    exact (one.perm same).outcomeClass

def lateResult : PostBeefResult where
  name := "late"
  txidResults := [{ txid := "a1", success := false, serviceError := true, data := some "timeout" }]

def goodResult : PostBeefResult where
  name := "good"
  success := true
  txidResults := [{ txid := "a1", success := true }]

/-- One provider accepts, another has a timeout: what comes first decides. -/
theorem judgements_disagree : ¬JudgeAlike [lateResult, goodResult] "a1" := by
  intro ⟨stable, _⟩
  have turned := stable [goodResult, lateResult] (List.Perm.swap lateResult goodResult [])
  revert turned
  decide +kernel

end
end WalletToolbox

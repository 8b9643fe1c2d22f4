import WalletToolbox.Proofs.ChangeEnds
import WalletToolbox.Provider.CreateAction
import Mathlib.Algebra.Order.BigOperators.Group.List
import Mathlib.Order.ConditionallyCompleteLattice.Basic
import Mathlib.Data.Int.ConditionallyCompleteOrder

/-! The check that refuses an action before it is funded, and change generation on the same
inputs, outputs and candidates: they agree unless an output asks for as much as possible. -/

namespace WalletToolbox
open Async GenerateChangeSdkParams List

section
variable {params : GenerateChangeSdkParams} {pool : List GenerateChangeSdkChangeInput} {plan : ChangePlan}

theorem change_nonneg (above : AboveDust params plan.changeOutputs) : 0 ≤ plan.change := by
  apply sum_nonneg
  intro satoshis member
  obtain ⟨output, has, rfl⟩ := mem_map.mp member
  have floor : 1 ≤ params.dustFloor := le_max_left _ _
  have dust := above output has
  omega

theorem subperm_worth {inputs : List GenerateChangeSdkChangeInput} (amounts : ∀ input ∈ pool, 0 ≤ input.satoshis) (sub : inputs.Subperm pool) :
    (inputs.map GenerateChangeSdkChangeInput.satoshis).sum ≤ (pool.map GenerateChangeSdkChangeInput.satoshis).sum := by
  obtain ⟨part, same, sublist⟩ := sub
  rw [← (same.map GenerateChangeSdkChangeInput.satoshis).sum_eq]
  apply (sublist.map GenerateChangeSdkChangeInput.satoshis).sum_le_sum
  intro satoshis member
  obtain ⟨input, has, rfl⟩ := mem_map.mp member
  exact amounts input has

theorem feeExcess_le (rising : Monotone params.feeOfSize) (amounts : ∀ input ∈ pool, 0 ≤ input.satoshis)
    (sub : plan.allocatedChangeInputs.Subperm pool) (above : AboveDust params plan.changeOutputs) :
    plan.feeExcess params ≤ params.fixedFunding + (pool.map GenerateChangeSdkChangeInput.satoshis).sum - params.spending -
      params.feeOfSize (params.sizeWith 0 0) := by
  have worth := subperm_worth amounts sub
  have change := change_nonneg above
  have fee := rising (@sizeWith_mono params 0 (plan.allocatedChangeInputs.length + 0) 0 (plan.changeOutputs.length + 0) (Nat.zero_le _) (Nat.zero_le _))
  show plan.funding params - params.spending - plan.change - params.feeOfSize (plan.size params 0 0) ≤ _
  unfold ChangePlan.funding ChangePlan.size
  omega

theorem validateChangeSatoshis_error {satoshis min name error}
    (refused : validateChangeSatoshis satoshis name min = .error error) : ∃ parameter mustBe, error = .invalidParameter parameter mustBe := by
  unfold validateChangeSatoshis at refused
  split at refused
  · cases refused
    exact ⟨_, _, rfl⟩
  · split at refused
    · cases refused
      exact ⟨_, _, rfl⟩
    · cases refused

theorem hasMaxPossibleOutput_error
    (refused : hasMaxPossibleOutput outputs found = .error error) : ∃ parameter mustBe, error = .invalidParameter parameter mustBe := by
  induction outputs generalizing found with
  | nil => cases refused
  | cons first rest ih =>
    unfold hasMaxPossibleOutput at refused
    rcases Effects.bind_eq_error.mp refused with amount | ⟨_, _, later⟩
    · exact validateChangeSatoshis_error amount
    · split at later
      · split at later
        · cases later
          exact ⟨_, _, rfl⟩
        · exact ih later
      · exact ih later

theorem validParams_error (refused : validateGenerateChangeSdkParams params = .error error) :
    ∃ parameter mustBe, error = .invalidParameter parameter mustBe := by
  unfold validateGenerateChangeSdkParams at refused
  rcases Effects.bind_eq_error.mp refused with inputs | ⟨_, _, refused⟩
  · obtain ⟨input, _, amount⟩ := Effects.forM_error inputs
    exact validateChangeSatoshis_error amount
  · rcases Effects.bind_eq_error.mp refused with outputs | ⟨_, _, refused⟩
    · exact hasMaxPossibleOutput_error outputs
    · rcases Effects.bind_eq_error.mp refused with first | ⟨_, _, refused⟩
      · exact validateChangeSatoshis_error first
      · rcases Effects.bind_eq_error.mp refused with initial | ⟨_, _, refused⟩
        · exact validateChangeSatoshis_error initial
        · cases refused

def EndsFunded (funded : Prop) (past : List ChangeEvent) (error : WalletError) : Prop := Resolved past → ¬ funded ∧ IsInsufficientFunds error

theorem settlePlan_short
    (rates : ∀ size, 0 ≤ params.feeOfSize size) (valid : validateGenerateChangeSdkParams params = .ok maxPossible)
    (holding : InHand ids past plan.allocatedChangeInputs) (above : AboveDust params plan.changeOutputs) (short : plan.feeExcess params < 0) :
    (settlePlan params maxPossible plan).Along allowed
      (EndsReserved (EndsFunded (maxPossible.isSome = true)) fun _ _ => maxPossible.isSome = true) past := by
  unfold settlePlan
  cases maxPossible with
  | none =>
    unfold settleChange
    rw [if_pos short]
    refine reserves_bind ((releaseAll_along rejects_unresolved holding).mono fun more outcome reserves => reserves.mono fun _ _ => ?_)
    exact fun _ => ⟨by simp, _, _, rfl⟩
  | some i =>
    dsimp only
    rw [if_pos short]
    obtain ⟨output, found, most⟩ := validParams_maxPossible valid
    obtain ⟨adjusted, satoshis, ok, sameFees, sameFloor, excess, _⟩ := @adjustMaxPossible_ok params plan i output found most
    rw [ok]
    have returns := @finishChange_returns adjusted plan (fun size => by rw [sameFees]; exact rates size) (some (i, satoshis))
      (fun other member => by rw [sameFloor]; exact above other member) excess.ge fun _ => excess.le
    obtain ⟨r, done, _⟩ := returns
    show (settleChange adjusted (some (i, satoshis)) plan).Along allowed _ past
    unfold settleChange
    rw [if_neg (not_lt.mpr excess.ge), if_neg (fun exceeds => absurd exceeds.2 (not_lt.mpr excess.le)), done]
    exact rfl

theorem generateChangeSdk_short (rising : Monotone params.feeOfSize) (rates : ∀ size, 0 ≤ params.feeOfSize size)
    (amounts : ∀ input ∈ pool, 0 ≤ input.satoshis) (distinct : (pool.map GenerateChangeSdkChangeInput.outputId).Nodup)
    (short : params.fixedFunding + (pool.map GenerateChangeSdkChangeInput.satoshis).sum - params.spending - params.feeOfSize (params.sizeWith 0 0) < 0) (picks : pool.length < fuel) (rounds : params.maxOutputs.toNat < fuel) (draws : Program.Allows (DrawsFrom pool) events) (resolved : Resolved events)
    (answered : (generateChangeSdk params fuel).Answers events outcome) :
    (∃ error, outcome = .error (.thrown error) ∧ IsInsufficientFunds error) ↔ validateGenerateChangeSdkParams params = .ok none := by
  cases valid : validateGenerateChangeSdkParams params with
  | error error =>
    have refused : generateChangeSdk params fuel = ChangeM.throws error := by
      unfold generateChangeSdk
      rw [valid]
      rfl
    rw [refused] at answered
    cases answered
    obtain ⟨parameter, mustBe, rfl⟩ := validParams_error valid
    refine iff_of_false ?_ (by simp)
    rintro ⟨_, same, _, _, rfl⟩
    cases same
  | ok maxPossible =>
    have ends := (generateChangeSdk_settles (fun _ _ permitted => permitted) rejects_unresolved distinct valid picks rounds reaching_anything
      fun past plan holding ended _ => settlePlan_short rates valid holding ended.above (lt_of_le_of_lt (feeExcess_le rising amounts
        (subperm_of_subset (List.Nodup.of_map _ holding.1.distinct) ended.inside) ended.above) short)).of_allows answered draws
    match outcome, ends with
    | .error (.thrown error), ends =>
      obtain ⟨none, insufficient⟩ := ends resolved
      refine iff_of_true ⟨error, rfl, insufficient⟩ ?_
      cases maxPossible with
      | none => rfl
      | some _ => exact absurd rfl none
    | .ok r, ends =>
      refine iff_of_false (by simp) ?_
      rintro same
      cases same
      cases ends

end

namespace CreateAction

def changePool (noSendChangeIn : List TableOutput) (candidates : List GenerateChangeSdkChangeInput) : List GenerateChangeSdkChangeInput :=
  noSendChangeIn.map (fun o => ⟨o.outputId, o.satoshis⟩) ++ candidates

/-- The least that is required is more than what there is, and storage has no candidates. -/
def RequiresMore (ctx : CreateTransactionSdkContext) : Prop :=
  ctx.feeModel.rated = true ∧ ctx.availableChangeCount = 0 ∧
    (ctx.xinputs.map (·.satoshis)).sum + (ctx.noSendChangeIn.map TableOutput.satoshis).sum <
      (ctx.xoutputs.map (·.satoshis)).sum +
        ctx.feeModel.feeOfSize (transactionSize (ctx.xinputs.map (·.unlockingScriptLength)) (ctx.xoutputs.map (·.lockingScript.length / 2)))

/-- The check before the funding of an action. -/
def preflight (ctx : CreateTransactionSdkContext) : Except WalletError Unit :=
  preflightInsufficientFundsFastPath ctx.xinputs ctx.xoutputs ctx.noSendChangeIn ctx.availableChangeCount ctx.feeModel

section
variable (random : Nat → RandomValue) (ctx : CreateTransactionSdkContext)

theorem preflight_cases : (preflight ctx = .ok () ∧ ¬ RequiresMore ctx) ∨ ∃ error, preflight ctx = .error error ∧ IsInsufficientFunds error ∧ RequiresMore ctx := by
  unfold preflight preflightInsufficientFundsFastPath
  split
  · next unrated => exact .inl ⟨rfl, fun requires => by simp [requires.1] at unrated⟩
  · next rated =>
    dsimp only
    split
    · next enough => exact .inl ⟨rfl, fun requires => absurd requires.2.2 (not_lt.mpr enough)⟩
    · next short =>
      split
      · next none => exact .inr ⟨_, rfl, ⟨_, _, rfl⟩, by simpa using rated, none, not_le.mp short⟩
      · next some => exact .inl ⟨rfl, fun requires => some requires.2.1⟩

theorem fundingParams_fixedFunding : (fundingParams random ctx).fixedFunding = (ctx.xinputs.map (·.satoshis)).sum := by
  simp [fixedFunding, fundingParams, Function.comp_def]

theorem fundingParams_spending : (fundingParams random ctx).spending = (ctx.xoutputs.map (·.satoshis)).sum := by
  simp [spending, fundingParams, Function.comp_def]

theorem fundingParams_size : (fundingParams random ctx).sizeWith 0 0 =
    transactionSize (ctx.xinputs.map (·.unlockingScriptLength)) (ctx.xoutputs.map (·.lockingScript.length / 2)) := by
  simp [sizeWith, fundingParams, Function.comp_def]

theorem changePool_worth (noSendChangeIn : List TableOutput) : ((changePool noSendChangeIn []).map GenerateChangeSdkChangeInput.satoshis).sum =
    (noSendChangeIn.map TableOutput.satoshis).sum := by
  simp [changePool, Function.comp_def]

end

/-- For any allocator of the candidates, an action that the check refuses is one that change
generation cannot fund, unless an output asks for as much as possible. -/
theorem fastPath_agrees_iff (random : Nat → RandomValue) (ctx : CreateTransactionSdkContext) (rising : Monotone ctx.feeModel.feeOfSize)
    (rates : ∀ size, 0 ≤ ctx.feeModel.feeOfSize size) (candidates : List GenerateChangeSdkChangeInput)
    (counted : ctx.availableChangeCount = candidates.length) (amounts : ∀ input ∈ changePool ctx.noSendChangeIn candidates, 0 ≤ input.satoshis)
    (distinct : ((changePool ctx.noSendChangeIn candidates).map GenerateChangeSdkChangeInput.outputId).Nodup)
    (fuel : Nat) (picks : (changePool ctx.noSendChangeIn candidates).length < fuel) (rounds : (fundingParams random ctx).maxOutputs.toNat < fuel)
    (events : List ChangeEvent) (outcome : Except ChangeFailure GenerateChangeSdkResult)
    (draws : Program.Allows (DrawsFrom (changePool ctx.noSendChangeIn candidates)) events) (resolved : Resolved events)
    (answered : (generateChangeSdk (fundingParams random ctx) fuel).Answers events outcome) :
    ((∃ error, preflight ctx = .error error ∧ IsInsufficientFunds error) → ∃ error, outcome = .error (.thrown error) ∧ IsInsufficientFunds error) ↔
      (¬ RequiresMore ctx ∨ validateGenerateChangeSdkParams (fundingParams random ctx) = .ok none) := by
  rcases preflight_cases ctx with ⟨passes, enough⟩ | ⟨error, throws, insufficient, requires⟩
  · refine iff_of_true ?_ (.inl enough)
    rintro ⟨_, throws, _⟩
    rw [passes] at throws
    cases throws
  · have none := length_eq_zero_iff.mp (counted.symm.trans requires.2.1)
    subst none
    have short : (fundingParams random ctx).fixedFunding + ((changePool ctx.noSendChangeIn []).map GenerateChangeSdkChangeInput.satoshis).sum -
        (fundingParams random ctx).spending - (fundingParams random ctx).feeOfSize ((fundingParams random ctx).sizeWith 0 0) < 0 := by
      rw [fundingParams_fixedFunding, fundingParams_spending, fundingParams_size, changePool_worth]
      have more := requires.2.2
      show _ - _ - ctx.feeModel.feeOfSize _ < 0
      omega
    have ends := generateChangeSdk_short rising rates amounts distinct short picks rounds draws resolved answered
    constructor
    · intro agrees
      exact .inr (ends.mp (agrees ⟨error, throws, insufficient⟩))
    · intro holds _
      exact ends.mpr (holds.resolve_left (not_not.mpr requires))

def singleInput (satoshis : Int) : CreateTransactionSdkContext where
  xinputs := [{ outpoint := ⟨"t", 0⟩, inputDescription := "sample", unlockingScriptLength := 107, vin := 0, lockingScript := [], satoshis := 5000, output := none }]
  xoutputs := [requiredOutput ⟨"76a9", satoshis, "sample", none, none, []⟩ 0]
  changeBasket := ⟨1, 1, "default", 0, 1, false⟩
  noSendChangeIn := []
  availableChangeCount := 0
  feeModel := ⟨true, fun size => (size + 999) / 1000⟩
  transactionId := 1

theorem singleInput_rising (satoshis : Int) : Monotone (singleInput satoshis).feeModel.feeOfSize := by
  intro smaller larger le
  show ((smaller : Int) + 999) / 1000 ≤ ((larger : Int) + 999) / 1000
  omega

/-- Twice the input is refused by the check and by change generation. -/
theorem fastPath_agrees_sample : ∃ events error, (∃ error, preflight (singleInput 10000) = .error error ∧ IsInsufficientFunds error) ∧
    (generateChangeSdk (fundingParams (fun _ => 0) (singleInput 10000)) 20).Answers events (.error (.thrown error)) ∧ IsInsufficientFunds error := by
  have answered : (generateChangeSdk (fundingParams (fun _ => 0) (singleInput 10000)) 20).Answers [⟨.allocate 5003 none, .ok none⟩]
      (.error (.thrown (.insufficientFunds 10001 5001))) := Program.answers_of_replay (by decide +kernel)
  have throws : ∃ error, preflight (singleInput 10000) = .error error ∧ IsInsufficientFunds error := ⟨_, rfl, _, _, rfl⟩
  have draws : Program.Allows (DrawsFrom (changePool (singleInput 10000).noSendChangeIn [])) [⟨.allocate 5003 none, .ok none⟩] := Program.allows_one rfl
  have agrees := (fastPath_agrees_iff (fun _ => 0) (singleInput 10000) (singleInput_rising 10000)
    (fun size => (by show (0 : Int) ≤ ((size : Int) + 999) / 1000; omega)) [] rfl (fun _ member => (by cases member)) nodup_nil 20 (by decide) (by decide) _ _
    draws (by simp [Resolved, isRejected]) answered).mpr (.inr (by decide +kernel)) throws
  obtain ⟨error, same, insufficient⟩ := agrees
  cases same
  exact ⟨_, _, throws, answered, insufficient⟩

/-- An output for as much as possible is refused by the check and funded by change generation. -/
theorem fundable_action_refused : ∃ error events r, preflight (singleInput maxPossibleSatoshis) = .error error ∧ IsInsufficientFunds error ∧
    Program.Allows (DrawsFrom (changePool (singleInput maxPossibleSatoshis).noSendChangeIn [])) events ∧
    (generateChangeSdk (fundingParams (fun _ => 0) (singleInput maxPossibleSatoshis)) 20).Answers events (.ok r) ∧
    r.maxPossibleSatoshisAdjustment = some (0, 4999) := by
  have answered : (generateChangeSdk (fundingParams (fun _ => 0) (singleInput maxPossibleSatoshis)) 20).Answers [⟨.allocate 2099999999995002 none, .ok none⟩]
      (.ok ⟨[], [], 169, 1, some (0, 4999)⟩) := Program.answers_of_replay (by decide +kernel)
  have draws : Program.Allows (DrawsFrom (changePool (singleInput maxPossibleSatoshis).noSendChangeIn [])) [⟨.allocate 2099999999995002 none, .ok none⟩] :=
    Program.allows_one rfl
  exact ⟨_, _, _, rfl, ⟨_, _, rfl⟩, draws, answered, rfl⟩

end CreateAction

end WalletToolbox

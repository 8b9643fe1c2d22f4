import WalletToolbox.Proofs.FastPath
import WalletToolbox.Proofs.NumberedOutputs

/-! What an output for as much as possible gets: the whole pool after the other outputs and
the fee, also where that is less than nothing. -/

namespace WalletToolbox
open Async StorageRocksDb GenerateChangeSdkChangeInput

def GenerateChangeSdkParams.otherSpending (params : GenerateChangeSdkParams) : Int := params.spending - maxPossibleSatoshis

/-- What the whole pool leaves for the output, after the other outputs and the fee. -/
def largestAmount (params : GenerateChangeSdkParams) (pool : List GenerateChangeSdkChangeInput) : Int :=
  params.fixedFunding + (pool.map GenerateChangeSdkChangeInput.satoshis).sum - params.otherSpending - params.feeOfSize (params.sizeWith pool.length 0)

def GenerateChangeSdkResult.available (params : GenerateChangeSdkParams) (r : GenerateChangeSdkResult) : Int :=
  params.fixedFunding + (r.allocatedChangeInputs.map GenerateChangeSdkChangeInput.satoshis).sum

/-- The output at `i` gets all of the available funding that the other outputs and the fee
leave, and there is a result only where that covers them. -/
structure AmountReturned (params : GenerateChangeSdkParams) (i : Nat) (r : GenerateChangeSdkResult) : Prop where
  covers : params.otherSpending + r.fee ≤ r.available params
  amount : ∀ index satoshis, r.maxPossibleSatoshisAdjustment = some (index, satoshis) →
    index = i ∧ 0 ≤ satoshis ∧ satoshis = r.available params - params.otherSpending - r.fee

def AmountSettled (params : GenerateChangeSdkParams) (i : Nat) (events : List ChangeEvent) : Except ChangeFailure GenerateChangeSdkResult → Prop
  | .ok r => AmountReturned params i r
  | .error (.thrown error) => Resolved events → IsInsufficientFunds error
  | .error .unfinished => False

section
variable {params : GenerateChangeSdkParams} {pool : List GenerateChangeSdkChangeInput} {plan : ChangePlan} {i : Nat}

theorem whole_excess (whole : plan.allocatedChangeInputs.Perm pool) (none : plan.changeOutputs = []) :
    plan.feeExcess params = largestAmount params pool - maxPossibleSatoshis := by
  rw [excess_whole whole none]
  have excess : (ChangePlan.mk pool []).feeExcess params = _ := feeExcess_inputs pool 0
  unfold largestAmount GenerateChangeSdkParams.otherSpending
  omega

theorem whole_excess_le (rising : Monotone params.feeOfSize) (whole : plan.allocatedChangeInputs.Perm pool) (above : AboveDust params plan.changeOutputs) :
    plan.feeExcess params ≤ largestAmount params pool - maxPossibleSatoshis := by
  have change := change_nonneg above
  have fee := rising (@sizeWith_mono params pool.length (plan.allocatedChangeInputs.length + 0) 0 (plan.changeOutputs.length + 0)
    (whole.length_eq ▸ Nat.le_refl _) (Nat.zero_le _))
  have worth := (whole.map GenerateChangeSdkChangeInput.satoshis).sum_eq
  show plan.funding params - params.spending - plan.change - params.feeOfSize (plan.size params 0 0) ≤ _
  unfold ChangePlan.funding ChangePlan.size largestAmount GenerateChangeSdkParams.otherSpending
  omega

/-- The loops end short of funds only when the allocator has run out, and always then where
the pool does not cover the rest. -/
structure RunsShort (params : GenerateChangeSdkParams) (pool : List GenerateChangeSdkChangeInput) (past : List ChangeEvent) (plan : ChangePlan) : Prop where
  out : plan.feeExcess params < 0 → RanOut past
  short : largestAmount params pool < 0 → RanOut past → plan.feeExcess params < 0

theorem EndsReserved.reaching (reserves : EndsReserved thrown good past outcome) : Reaching good past outcome := by
  rintro value rfl
  exact reserves

variable (rising : Monotone params.feeOfSize) (distinct : (pool.map outputId).Nodup)
include rising distinct

theorem starvationLoop_short (picks : pool.length < fuel) (nothing : plan.allocatedChangeInputs = [])
    (wanted : AboveDust params plan.changeOutputs ∧ plan.changeOutputs.length ≤ params.maxOutputs.toNat) (small : largestAmount params pool < 0) :
    (starvationLoop params fuel rounds false plan).Along (DrawsFrom pool) (Reaching fun more after => RanOut more → after.feeExcess params < 0) [] := by
  have rejects : ThrowsRejected (DrawsFrom pool) fun _ _ => True := fun _ _ _ _ _ _ => trivial
  have each := @draws_rounds params pool (DrawsFrom pool) (fun _ _ draws => draws) distinct
  have empty : InHand (pool.map outputId) [] plan.allocatedChangeInputs := by
    rw [nothing]
    exact ⟨holds_nothing, fun _ member => (by cases member)⟩
  cases rounds with
  | zero => exact fun _ same => (by cases same)
  | succ rounds =>
    unfold starvationLoop
    refine reaching_bind (((releaseAll_along rejects empty).and (releaseAll_reaching plan)).mono fun more outcome both released done => ?_)
    obtain ⟨releases, reaches⟩ := both
    obtain ⟨holding, rfl⟩ := releases.reaching released done
    obtain ⟨same, _⟩ := reaches _ done
    have before : ¬ RanOut more := fun ran => by simpa [RanOut] using same.mp ran
    refine reaching_bind (((fundingLoop_along (fun _ _ draws => draws.offered) rejects (each.adds false) fuel (by simpa using picks) holding
      (each.enter false _ wanted)).and (fundingLoop_reaching fuel _)).mono fun later outcome both funded done => ?_)
    obtain ⟨funds, reaches⟩ := both
    obtain ⟨_, kept, _, stops⟩ := funds.reaching funded done
    have ends := fun ran => ((reaches funded done).2 ran).resolve_left before
    split
    · intro _ same
      cases same
      exact ends
    · next goesOn =>
      have whole := taken_whole (fun _ _ _ none => none) distinct (stops.resolve_left (not_or.mp goesOn).1) kept.1
      have above : AboveDust params (funded.starved params).changeOutputs := kept.2.1.of_suffix (by
        rw [ChangePlan.starved, List.reverse_reverse]
        exact dropUnfunded_suffix _ _)
      have less := @whole_excess_le params pool (funded.starved params) rising whole above
      have still : (funded.starved params).feeExcess params < 0 := by
        have most : (0 : Int) ≤ maxPossibleSatoshis := by decide
        omega
      dsimp only
      split
      · intro _ same _
        cases same
        exact still
      · next enough => exact absurd still enough

theorem starvationLoop_runsShort (picks : pool.length < fuel) :
    (starvationLoop params fuel fuel false (wantedChangeOutputs params params.maxOutputs.toNat ⟨[], []⟩)).Along (DrawsFrom pool)
      (Reaching (RunsShort params pool)) [] := by
  by_cases small : largestAmount params pool < 0
  · refine ((starvationLoop_out _).and (starvationLoop_short rising distinct picks wanted_inputs wanted_aboveDust small)).mono
      fun more outcome both plan done => ⟨both.1 plan done, fun _ => both.2 plan done⟩
  · exact (starvationLoop_out _).mono fun more outcome out plan done => ⟨out plan done, fun less => absurd less small⟩

end

section
variable {params : GenerateChangeSdkParams} {pool : List GenerateChangeSdkChangeInput} {plan : ChangePlan} {i : Nat}

def AmountReturnedIff (params : GenerateChangeSdkParams) (pool : List GenerateChangeSdkChangeInput) (i : Nat) (past : List ChangeEvent) (r : GenerateChangeSdkResult) : Prop :=
  Resolved past ∧ (AmountReturned params i r ↔ (RanOut past → 0 ≤ largestAmount params pool))

def ThrowsCovered (params : GenerateChangeSdkParams) (pool : List GenerateChangeSdkChangeInput) (past : List ChangeEvent) (error : WalletError) : Prop :=
  Resolved past → IsInsufficientFunds error ∧ (RanOut past → 0 ≤ largestAmount params pool)

theorem rejects_covered {allowed} : ThrowsRejected allowed (ThrowsCovered params pool) := rejects_unresolved

theorem settlePlan_amount
    (rates : ∀ size, 0 ≤ params.feeOfSize size) (valid : validateGenerateChangeSdkParams params = .ok (some i))
    (holding : InHand ids past plan.allocatedChangeInputs) (ended : LoopsEnded params pool plan) (runs : RunsShort params pool past plan) :
    (settlePlan params (some i) plan).Along allowed (EndsReserved (ThrowsCovered params pool) (AmountReturnedIff params pool i)) past := by
  unfold settlePlan
  dsimp only
  split
  · next short =>
    obtain ⟨none, whole⟩ := ended.short short
    obtain ⟨output, found, most⟩ := validParams_maxPossible valid
    obtain ⟨adjusted, satoshis, ok, sameFees, sameFloor, excess, amount, sizes⟩ := @adjustMaxPossible_ok params plan i output found most
    obtain ⟨r, done, finished⟩ := @finishChange_returns adjusted plan (fun size => by rw [sameFees]; exact rates size) (some (i, satoshis))
      (fun other member => by rw [sameFloor]; exact ended.above other member) excess.ge fun _ => excess.le
    rw [ok]
    show (settleChange adjusted (some (i, satoshis)) plan).Along allowed _ past
    unfold settleChange
    rw [if_neg (not_lt.mpr excess.ge), if_neg (fun exceeds => absurd exceeds.2 (not_lt.mpr excess.le)), done]
    have leaves := @whole_excess params pool plan whole none
    have largest : satoshis = largestAmount params pool := by omega
    have fee : r.fee = params.feeOfSize (params.sizeWith pool.length 0) := by
      rw [finished.fee, sameFees]
      unfold ChangePlan.size
      rw [sizes, none, whole.length_eq]
      rfl
    have paid : largestAmount params pool = r.available params - params.otherSpending - r.fee := by
      unfold largestAmount GenerateChangeSdkResult.available
      rw [finished.inputs, (whole.map GenerateChangeSdkChangeInput.satoshis).sum_eq, fee]
    refine ⟨holding.2, fun returned _ => ?_, fun covers => ?_⟩
    · exact largest ▸ (returned.amount i satoshis finished.adjusted).2.1
    · have enough := covers (runs.out short)
      refine ⟨by omega, fun index other same => ?_⟩
      rw [finished.adjusted] at same
      cases same
      exact ⟨rfl, by omega, by omega⟩
  · next funded =>
    have covers : RanOut past → 0 ≤ largestAmount params pool := by
      intro ran
      by_contra less
      exact funded (runs.short (not_le.mp less) ran)
    unfold settleChange
    rw [if_neg funded]
    split
    · refine reserves_bind (((releaseAll_along (@rejects_covered params pool _) holding).and (releaseAll_reaching plan)).mono fun more outcome both => ?_)
      match outcome with
      | .error (.thrown error) => exact both.1
      | .error .unfinished => exact both.1
      | .ok released => exact fun _ => ⟨⟨_, _, rfl⟩, fun ran => covers ((both.2 released rfl).1.mp ran)⟩
    · next taken =>
      obtain ⟨r, done, finished⟩ := @finishChange_returns params plan rates none ended.above (not_lt.mp funded) fun nothing =>
        not_lt.mp fun exceeds => taken ⟨nothing, exceeds⟩
      rw [done]
      have change := @change_nonneg params ⟨r.allocatedChangeInputs, r.changeOutputs⟩ finished.above
      have paid : params.fixedFunding + (r.allocatedChangeInputs.map GenerateChangeSdkChangeInput.satoshis).sum - params.spending -
        (ChangePlan.mk r.allocatedChangeInputs r.changeOutputs).change = r.fee := finished.paid
      have most : (0 : Int) ≤ maxPossibleSatoshis := by decide
      refine ⟨holding.2, iff_of_true ⟨?_, fun index other same => ?_⟩ covers⟩
      · unfold GenerateChangeSdkResult.available GenerateChangeSdkParams.otherSpending
        omega
      · rw [finished.adjusted] at same
        cases same

theorem generateChangeSdk_amount (valid : validateGenerateChangeSdkParams params = .ok (some i)) (rates : ∀ size, 0 ≤ params.feeOfSize size)
    (rising : Monotone params.feeOfSize) (distinct : (pool.map outputId).Nodup) (picks : pool.length < fuel)
    (rounds : params.maxOutputs.toNat < fuel)
    (draws : Program.Allows (DrawsFrom pool) events) (resolved : Resolved events) (answered : (generateChangeSdk params fuel).Answers events outcome) :
    AmountSettled params i events outcome ↔ (RanOut events → 0 ≤ largestAmount params pool) := by
  have ends := (generateChangeSdk_settles (fun _ _ permitted => permitted) rejects_covered distinct valid picks rounds
    (starvationLoop_runsShort rising distinct picks) fun past plan holding ended runs => settlePlan_amount rates valid holding ended runs).of_allows answered draws
  match outcome, ends with
  | .ok r, ends => exact ends.2
  | .error (.thrown error), ends =>
    obtain ⟨insufficient, covers⟩ := ends resolved
    exact iff_of_true (fun _ => insufficient) covers

end

namespace CreateAction

def AmountStored (storage : ActionStorage) (vargs : ValidCreateActionArgs) (funded : FundNewTransactionSdkResult) (after : TableRows)
    (result : StorageCreateActionResult) : Prop :=
  ∀ index satoshis, funded.maxPossibleSatoshisAdjustment = some (index, satoshis) → 0 ≤ satoshis ∧
    ∃ xo row told, (validateRequiredOutputs storage vargs)[index]? = some xo ∧ xo.satoshis = maxPossibleSatoshis ∧
      after .outputs (.id row.outputId) = some row ∧ row.satoshis = satoshis ∧ row.lockingScript = Hex.decode xo.lockingScript ∧
      told ∈ result.outputs ∧ told.vout = row.vout ∧ told.satoshis = satoshis

theorem NumberedOutputs.amountStored {storage vargs funded before after result stored} (numbered : NumberedOutputs storage vargs funded before after result stored) :
    AmountStored storage vargs funded after result := by
  intro index satoshis adjustment
  obtain ⟨xo, found, most⟩ := numbered.adjusted index satoshis adjustment
  obtain ⟨output, isOutput, ⟨script, decoded, scriptStored⟩, amount, _⟩ := numbered.requested index xo found
  have amount : output.o.satoshis = satoshis := by
    rw [amount, amountOf, if_pos most, adjustment]
    rfl
  have is := numbered.added.outputs output (List.mem_of_getElem? isOutput)
  obtain ⟨told, isTold, same⟩ := beside numbered.told.flip isOutput
  exact ⟨amount ▸ is.worth, xo, output.o, told, found, most, is.here, amount, scriptStored.trans decoded.symm, List.mem_of_getElem? isTold, same.vout,
    same.satoshis.trans amount⟩

/-- An output for as much as possible gets all that is left to it, and its row that amount:
exactly where the pool covers the other outputs and the fee, or is not used up. -/
theorem maxPossible_amount_iff (params : GenerateChangeSdkParams) (i : Nat) (valid : validateGenerateChangeSdkParams params = .ok (some i))
    (rates : ∀ size, 0 ≤ params.feeOfSize size) (rising : Monotone params.feeOfSize) (pool : List GenerateChangeSdkChangeInput)
    (distinct : (pool.map outputId).Nodup) (fuel : Nat) (picks : pool.length < fuel) (rounds : params.maxOutputs.toNat < fuel)
    (events : List ChangeEvent) (outcome : Except ChangeFailure GenerateChangeSdkResult) (draws : Program.Allows (DrawsFrom pool) events)
    (resolved : Resolved events) (answered : (generateChangeSdk params fuel).Answers events outcome) :
    (AmountSettled params i events outcome ↔ (RanOut events → 0 ≤ largestAmount params pool)) ∧
      ∀ (hash : ScriptHash) (storage : ActionStorage) (database : Database) (userId : Nat) (vargs : ValidCreateActionArgs), LooksUp hash storage →
        SoundStorage database → (createAction storage userId vargs).Resolves (callAlone hash) database fun result after =>
          ∃ start started funded funds, (ActionM.lift (startAction storage userId vargs)).run (callAlone hash) database = (.ok start, started) ∧
            (fundNewTransactionSdk storage userId vargs start.ctx).run (callAlone hash) started = (.ok funded, funds) ∧
            AmountStored storage vargs funded after.rows result := by
  refine ⟨generateChangeSdk_amount valid rates rising distinct picks rounds draws resolved answered, fun hash storage database userId vargs looks sound => ?_⟩
  refine (createAction_numbered looks sound userId vargs).mono fun result after ends => ?_
  obtain ⟨start, started, funded, funds, stored, ran, generated, numbered⟩ := ends
  exact ⟨start, started, funded, funds, ran, generated, numbered.amountStored⟩

def besideMaxPossible (satoshis : Int) : GenerateChangeSdkParams :=
  { sampleChangeParams with fixedInputs := [⟨5000, 107⟩], fixedOutputs := [⟨satoshis, 25⟩, ⟨maxPossibleSatoshis, 25⟩] }

theorem besideMaxPossible_rising (satoshis : Int) : Monotone (besideMaxPossible satoshis).feeOfSize := by
  intro smaller larger le
  show ((smaller : Int) + 999) / 1000 ≤ ((larger : Int) + 999) / 1000
  omega

theorem maxPossible_amount_sample : ∃ events r, (generateChangeSdk (besideMaxPossible 1000) 20).Answers events (.ok r) ∧
    r.maxPossibleSatoshisAdjustment = some (1, 3999) ∧ AmountSettled (besideMaxPossible 1000) 1 events (.ok r) := by
  have answered : (generateChangeSdk (besideMaxPossible 1000) 20).Answers [allocation 2099999999996002 2099999999996000 (.ok none)] (.ok ⟨[], [], 226, 1, some (1, 3999)⟩) :=
    Program.answers_of_replay (by decide +kernel)
  have draws : Program.Allows (DrawsFrom []) [allocation 2099999999996002 2099999999996000 (.ok none)] := Program.allows_one rfl
  have settles := maxPossible_amount_iff (besideMaxPossible 1000) 1 (by decide +kernel) (fun size => sampleChangeParams_rates size) (besideMaxPossible_rising 1000) []
    List.nodup_nil 20 (by decide) (by decide) _ _ draws (by simp [Resolved, isRejected, allocation]) answered
  exact ⟨_, _, answered, rfl, settles.1.mpr fun _ => by decide +kernel⟩

/-- The function returns an amount below zero. -/
theorem maxPossible_negative : ∃ events r, Program.Allows (DrawsFrom []) events ∧ (generateChangeSdk (besideMaxPossible 10000) 20).Answers events (.ok r) ∧
    r.maxPossibleSatoshisAdjustment = some (1, -5001) ∧ ¬ AmountSettled (besideMaxPossible 10000) 1 events (.ok r) := by
  have answered : (generateChangeSdk (besideMaxPossible 10000) 20).Answers [allocation 2100000000005002 2100000000005000 (.ok none)] (.ok ⟨[], [], 226, 1, some (1, -5001)⟩) :=
    Program.answers_of_replay (by decide +kernel)
  have draws : Program.Allows (DrawsFrom []) [allocation 2100000000005002 2100000000005000 (.ok none)] := Program.allows_one rfl
  refine ⟨_, _, draws, answered, rfl, fun settled => ?_⟩
  exact absurd (settled.amount 1 (-5001) rfl).2.1 (by decide)

end CreateAction

end WalletToolbox

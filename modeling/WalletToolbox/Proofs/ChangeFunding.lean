import WalletToolbox.Proofs.ChangeReservations
import WalletToolbox.Proofs.PlannedTransactions
import Mathlib.Data.List.Sublists
import Mathlib.Order.ConditionallyCompleteLattice.Basic
import Mathlib.Data.Int.ConditionallyCompleteOrder

/-! When change generation finds the funds that the pool has. Inputs are taken one at a
time and never exchanged for others: either the whole pool is taken, or the excess over
the fee is too little for a change output. -/

namespace WalletToolbox
open Async GenerateChangeSdkChangeInput List

def freeOf (pool : List GenerateChangeSdkChangeInput) (past : List ChangeEvent) : List GenerateChangeSdkChangeInput :=
  pool.filter fun input => input.outputId ∉ (unreleased past).map outputId

/-- The exact amount if there is one, else the least over the target, else the greatest under it. -/
def Picks (free : List GenerateChangeSdkChangeInput) (targetSatoshis : Int) (exactSatoshis : Option Int) :
    Option GenerateChangeSdkChangeInput → Prop
  | none => free = []
  | some input => input ∈ free ∧
      if ∃ other ∈ free, exactSatoshis = some other.satoshis then exactSatoshis = some input.satoshis
      else if ∃ other ∈ free, targetSatoshis ≤ other.satoshis then
        targetSatoshis ≤ input.satoshis ∧ ∀ other ∈ free, targetSatoshis ≤ other.satoshis → input.satoshis ≤ other.satoshis
      else ∀ other ∈ free, other.satoshis ≤ input.satoshis

instance {free : List GenerateChangeSdkChangeInput} {targetSatoshis : Int} {exactSatoshis : Option Int} :
    DecidablePred (Picks free targetSatoshis exactSatoshis)
  | none => inferInstanceAs (Decidable (free = []))
  | some _ => inferInstanceAs (Decidable (_ ∧ _))

def FollowsRule (pool : List GenerateChangeSdkChangeInput) (past : List ChangeEvent) : ChangeEvent → Prop
  | ⟨.allocate targetSatoshis exactSatoshis, .ok input⟩ => Picks (freeOf pool past) targetSatoshis exactSatoshis input
  | ⟨.release _, .ok _⟩ => True
  | _ => False

/-- Some of the pool pays for the fixed outputs, exactly or with one change output for the rest. -/
def Fundable (params : GenerateChangeSdkParams) (pool : List GenerateChangeSdkChangeInput) : Prop :=
  ∃ selection, selection.Subperm pool ∧ ((ChangePlan.mk selection []).feeExcess params = 0 ∨
    params.firstFloor ≤ (ChangePlan.mk selection []).feeExcessWith params 0 1)

def Worthwhile (params : GenerateChangeSdkParams) (pool : List GenerateChangeSdkChangeInput) : Prop :=
  ∀ input ∈ pool, ∀ inputs < pool.length, ∀ outputs ≤ 1,
    params.feeOfSize (params.sizeWith (inputs + 1) outputs) ≤ params.feeOfSize (params.sizeWith inputs outputs) + input.satoshis

instance (params : GenerateChangeSdkParams) (pool : List GenerateChangeSdkChangeInput) : Decidable (Worthwhile params pool) :=
  inferInstanceAs (Decidable (∀ input ∈ pool, ∀ inputs < pool.length, ∀ outputs ≤ 1, _ ≤ (_ : Int)))

def LeavesGap (params : GenerateChangeSdkParams) (inputs : List GenerateChangeSdkChangeInput) : Prop :=
  0 < (ChangePlan.mk inputs []).feeExcess params ∧
    (params.maxOutputs ≤ 0 ∨ (ChangePlan.mk inputs []).feeExcessWith params 0 1 < params.firstFloor)

/-- All that was allocated when the last input was. -/
def EndsHolding (events : List ChangeEvent) (inputs : List GenerateChangeSdkChangeInput) : Prop :=
  ∃ earlier later, events = earlier ++ later ∧ unreleased earlier = inputs ∧ handed later = []

theorem worth_of_sublist {cost : Nat → Int} {bound : Nat} {part whole : List Int} (sub : part.Sublist whole)
    (worth : ∀ value ∈ whole, ∀ count < bound, cost (count + 1) ≤ cost count + value) (already : Nat) (within : already + whole.length ≤ bound) :
    part.sum - cost (already + part.length) ≤ whole.sum - cost (already + whole.length) := by
  induction sub generalizing already with
  | slnil => exact le_refl _
  | @cons part whole value _ ih =>
    rw [length_cons] at within
    have rest := ih (fun other member => worth other (.tail _ member)) already (by omega)
    have own := worth value (.head _) (already + whole.length) (by omega)
    rw [sum_cons, length_cons, ← Nat.add_assoc]
    omega
  | @cons_cons part whole value _ ih =>
    rw [length_cons] at within
    have rest := ih (fun other member => worth other (.tail _ member)) (already + 1) (by omega)
    have first : already + 1 + part.length = already + (part.length + 1) := by omega
    have second : already + 1 + whole.length = already + (whole.length + 1) := by omega
    rw [first, second] at rest
    simp only [sum_cons, length_cons]
    omega

section
variable {params : GenerateChangeSdkParams} {pool selection inputs : List GenerateChangeSdkChangeInput}

theorem feeExcess_inputs (inputs) (outputs : Nat) : (ChangePlan.mk inputs []).feeExcessWith params 0 outputs =
    params.fixedFunding - params.spending + (inputs.map GenerateChangeSdkChangeInput.satoshis).sum -
      params.feeOfSize (params.sizeWith inputs.length outputs) := by
  unfold ChangePlan.feeExcessWith ChangePlan.feeTarget ChangePlan.size ChangePlan.funding ChangePlan.change
  simp only [map_nil, sum_nil, length_nil, Nat.add_zero, Nat.zero_add]
  omega

theorem Worthwhile.excess_le (worthwhile : Worthwhile params pool) (sub : selection.Subperm pool) (few : outputs ≤ 1) :
    (ChangePlan.mk selection []).feeExcessWith params 0 outputs ≤ (ChangePlan.mk pool []).feeExcessWith params 0 outputs := by
  obtain ⟨part, same, sublist⟩ := sub
  have satoshis := (same.map GenerateChangeSdkChangeInput.satoshis).sum_eq
  have worth := @worth_of_sublist (fun count => params.feeOfSize (params.sizeWith count outputs)) pool.length _ _
    (sublist.map GenerateChangeSdkChangeInput.satoshis) (fun value member count within => by
      obtain ⟨input, has, rfl⟩ := mem_map.mp member
      exact worthwhile input has count within outputs few) 0 (by simp)
  simp only [length_map, Nat.zero_add, satoshis, same.length_eq] at worth
  rw [feeExcess_inputs, feeExcess_inputs]
  omega

theorem feeExcess_perm (same : inputs.Perm pool) :
    (ChangePlan.mk inputs []).feeExcessWith params 0 outputs = (ChangePlan.mk pool []).feeExcessWith params 0 outputs := by
  rw [feeExcess_inputs, feeExcess_inputs, (same.map GenerateChangeSdkChangeInput.satoshis).sum_eq, same.length_eq]

theorem excess_whole {plan : ChangePlan} (same : plan.allocatedChangeInputs.Perm pool) (none : plan.changeOutputs = []) :
    plan.feeExcess params = (ChangePlan.mk pool []).feeExcess params := by
  obtain ⟨inputs, outputs⟩ := plan
  subst none
  exact feeExcess_perm same

theorem sizeWith_mono {changeInputs moreInputs changeOutputs moreOutputs} (inputs : changeInputs ≤ moreInputs) (outputs : changeOutputs ≤ moreOutputs) :
    params.sizeWith changeInputs changeOutputs ≤ params.sizeWith moreInputs moreOutputs := by
  unfold GenerateChangeSdkParams.sizeWith transactionSize
  have countsIn := @varUintSize_mono (params.fixedInputs.length + changeInputs) (params.fixedInputs.length + moreInputs) (Nat.add_le_add_left inputs _)
  have countsOut := @varUintSize_mono (params.fixedOutputs.length + changeOutputs) (params.fixedOutputs.length + moreOutputs) (Nat.add_le_add_left outputs _)
  simp only [length_append, length_map, length_replicate, map_append, sum_append, map_replicate, sum_replicate_nat]
  have scriptsIn := Nat.mul_le_mul_right (transactionInputSize params.changeUnlockingScriptLength) inputs
  have scriptsOut := Nat.mul_le_mul_right (transactionOutputSize params.changeLockingScriptLength) outputs
  omega

theorem feeExcess_output (rising : Monotone params.feeOfSize) (inputs) :
    (ChangePlan.mk inputs []).feeExcessWith params 0 1 ≤ (ChangePlan.mk inputs []).feeExcess params := by
  have larger : params.sizeWith inputs.length 0 ≤ params.sizeWith inputs.length 1 := sizeWith_mono (le_refl _) (Nat.zero_le _)
  have fees := rising larger
  show _ ≤ (ChangePlan.mk inputs []).feeExcessWith params 0 0
  rw [feeExcess_inputs, feeExcess_inputs]
  omega

theorem feeExcess_single (inputs) (output) :
    (ChangePlan.mk inputs [output]).feeExcess params = (ChangePlan.mk inputs []).feeExcessWith params 0 1 - output.satoshis := by
  rw [feeExcess_inputs]
  unfold ChangePlan.feeExcess ChangePlan.feeExcessWith ChangePlan.feeTarget ChangePlan.size ChangePlan.funding ChangePlan.change
  simp only [map_cons, map_nil, sum_cons, sum_nil, length_singleton, Nat.add_zero]
  omega

theorem firstFloor_positive : 0 < params.firstFloor := lt_of_lt_of_le one_pos (le_trans (le_max_left _ _) (le_max_left _ _))

theorem Fundable.whole (fundable : Fundable params pool) (worthwhile : Worthwhile params pool) (rising : Monotone params.feeOfSize) :
    0 ≤ (ChangePlan.mk pool []).feeExcess params := by
  obtain ⟨selection, sub, pays⟩ := fundable
  refine le_trans ?_ (worthwhile.excess_le sub (Nat.zero_le _))
  rcases pays with exactly | change
  · exact exactly.ge
  · have less := @feeExcess_output params rising selection
    exact le_trans (le_trans firstFloor_positive.le change) less

theorem taken_whole
    (complete : ∀ past targetSatoshis exactSatoshis, allowed past ⟨.allocate targetSatoshis exactSatoshis, .ok none⟩ → freeOf pool past = [])
    (distinct : (pool.map outputId).Nodup)
    (exhausted : Exhausted allowed (pool.map outputId) inputs) (inside : ∀ input ∈ inputs, input ∈ pool) :
    inputs.Perm pool := by
  obtain ⟨past, targetSatoshis, exactSatoshis, holds, none⟩ := exhausted
  have nothing := complete past _ _ none
  apply (perm_ext_iff_of_nodup (List.Nodup.of_map _ holds.distinct) (List.Nodup.of_map _ distinct)).mpr
  intro input
  refine ⟨inside input, fun member => ?_⟩
  have taken := filter_eq_nil_iff.mp nothing input member
  rw [holds.exact] at taken
  obtain ⟨other, has, same⟩ := mem_map.mp (by simpa using taken)
  rw [← inj_on_of_nodup_map distinct (inside other has) member same]
  exact has

theorem follows_complete (past : List ChangeEvent) (targetSatoshis : Int) (exactSatoshis)
    (follows : FollowsRule pool past ⟨.allocate targetSatoshis exactSatoshis, .ok none⟩) : freeOf pool past = [] := follows

/-- What the picked inputs leave without an output, and what they are picked from. -/
structure Funding.Round (params : GenerateChangeSdkParams) (pool : List GenerateChangeSdkChangeInput) (removing : Bool) (plan : ChangePlan) : Prop where
  inside : ∀ input ∈ plan.allocatedChangeInputs, input ∈ pool
  bounded : plan.changeOutputs.length ≤ params.maxOutputs.toNat
  first : FirstAtMost params plan.changeOutputs
  adding : removing = false → plan.changeOutputs = [] → params.maxOutputs ≤ 0 ∨ plan.feeExcess params < params.dustFloor
  stripped : removing = true → plan.changeOutputs = [] → (ChangePlan.mk pool []).feeExcessWith params 0 1 < params.firstFloor

/-- Where the loops end: without the funds for it, or with an excess too small for an output. -/
structure Funding.Ended (params : GenerateChangeSdkParams) (pool : List GenerateChangeSdkChangeInput) (plan : ChangePlan) : Prop where
  inside : ∀ input ∈ plan.allocatedChangeInputs, input ∈ pool
  unfunded : plan.feeExcess params < 0 → (ChangePlan.mk pool []).feeExcess params < 0
  gap : plan.changeOutputs = [] → params.maxOutputs ≤ 0 ∨ plan.feeExcess params < params.dustFloor ∨
    (ChangePlan.mk pool []).feeExcessWith params 0 1 < params.firstFloor

theorem funding_rounds (distinct : (pool.map outputId).Nodup) :
    Rounds params (FollowsRule pool) (pool.map outputId) (fun removing outputs => Funding.Round params pool removing ⟨[], outputs⟩)
      (Funding.Round params pool) (Funding.Ended params pool) where
  enter _ _ start := start
  adds removing past plan input ao targetSatoshis exactSatoshis round _ permitted := by
    have picked := mem_of_mem_filter (show Picks (freeOf pool past) targetSatoshis exactSatoshis (some input) from permitted).1
    have inside : ∀ other ∈ plan.allocatedChangeInputs ++ [input], other ∈ pool := by
      intro other member
      rcases mem_append.mp member with earlier | last
      · exact round.inside other earlier
      · rw [mem_singleton.mp last]
        exact picked
    rcases @maybeAddChangeOutput_cases params { plan with allocatedChangeInputs := plan.allocatedChangeInputs ++ [input] } removing ao with
      same | ⟨satoshis, same, kept, room, _, small⟩
    · rw [same]
      refine ⟨inside, round.bounded, round.first, fun kept none => ?_, round.stripped⟩
      -- an excess worth an output would have been taken up by one
      by_contra excess
      obtain ⟨room, enough⟩ := not_or.mp excess
      apply @maybeAddChangeOutput_takes params _ ao (not_le.mp room) (not_lt.mp enough)
      rw [← kept, same]
      exact none
    · rw [same]
      have inside' : (plan.changeOutputs.length : Int) < params.maxOutputs := room
      refine ⟨inside, ?_, round.first.append small, fun _ none => ?_, fun removes => ?_⟩
      · simp only [addChangeOutput_outputs, length_append, length_singleton]
        omega
      · simp at none
      · rw [kept] at removes
        cases removes
  bounded _ _ round := round.bounded
  done removing plan round stops exceeds := by
    refine ⟨round.inside, fun short => ?_, fun none => ?_⟩
    · have whole := taken_whole follows_complete distinct (stops.resolve_left (not_le.mpr short)) round.inside
      rw [← excess_whole whole (exceeds.resolve_left (not_le.mpr short))]
      exact short
    · cases removing with
      | false => exact (round.adding rfl none).imp_right .inl
      | true => exact .inr (.inr (round.stripped rfl none))
  starved _ plan round exhausted _ _ still := by
    have none : (plan.starved params).changeOutputs = [] := by
      rcases @dropUnfunded_funded params plan.allocatedChangeInputs plan.changeOutputs.reverse with nothing | funded
      · rw [ChangePlan.starved, nothing]
        rfl
      · exact absurd still (not_lt.mpr funded)
    have whole := taken_whole follows_complete distinct exhausted round.inside
    refine ⟨round.inside, fun short => ?_, fun _ => .inr (.inl (lt_trans still ?_))⟩
    · rw [← @excess_whole params pool (plan.starved params) whole none]
      exact short
    · exact lt_of_lt_of_le one_pos (le_max_left _ _)
  again _ plan round exhausted _ some _ := by
    have suffix := @leftOutputs_suffix params plan
    refine ⟨fun _ member => (by cases member), le_trans (by simpa using suffix.length_le) round.bounded, round.first.of_suffix suffix, fun kept => (by cases kept),
      fun _ none => ?_⟩
    -- no output is left, so the first one could not be funded by the whole pool
    have dropped : dropUnfunded params plan.allocatedChangeInputs plan.changeOutputs.reverse = [] := by
      by_contra left
      apply @dropChurn_some plan.allocatedChangeInputs (plan.starved params).changeOutputs.reverse
      · simpa [ChangePlan.starved] using left
      · simpa [removeChurnPairs] using none
    obtain ⟨first, head⟩ := Option.ne_none_iff_exists'.mp (mt head?_eq_none_iff.mp some)
    have starves := dropUnfunded_none dropped (by rw [getLast?_reverse]; exact head)
    rw [feeExcess_single, feeExcess_perm (taken_whole follows_complete distinct exhausted round.inside)] at starves
    have small := round.first first head
    omega

def ThrowsInGap (params : GenerateChangeSdkParams) (pool : List GenerateChangeSdkChangeInput) (past : List ChangeEvent) (error : WalletError) : Prop :=
  ∀ totalSatoshisNeeded moreSatoshisNeeded, error = .insufficientFunds totalSatoshisNeeded moreSatoshisNeeded →
    ∃ inputs, EndsHolding past inputs ∧ inputs.Subperm pool ∧ LeavesGap params inputs

theorem finishChange_throws (adjustment) (any : ∀ more r, good more r) :
    (finishChange adjusted adjustment plan).Along (FollowsRule pool) (EndsReserved (ThrowsInGap params pool) good) past := by
  unfold finishChange
  dsimp only
  split
  · exact any _ _
  · intro _ _ same
    cases same

theorem rejects_nothing : ThrowsRejected (FollowsRule pool) (ThrowsInGap params pool) := by
  intro past event error follows rejected _
  match event with
  | ⟨.allocate _ _, .ok _⟩ => cases rejected
  | ⟨.allocate _ _, .error _⟩ => exact follows.elim
  | ⟨.release _, .ok _⟩ => cases rejected
  | ⟨.release _, .error _⟩ => exact follows.elim

theorem settleChange_funding (rising : Monotone params.feeOfSize) (worthwhile : Worthwhile params pool)
    (adjustment : Option (Nat × Int))
    (holding : InHand (pool.map outputId) past plan.allocatedChangeInputs) (funded : 0 ≤ plan.feeExcess params)
    (ended : Funding.Ended params pool plan) :
    (settleChange params adjustment plan).Along (FollowsRule pool) (EndsReserved (ThrowsInGap params pool) fun _ _ => True) past := by
  unfold settleChange
  rw [if_neg (not_lt.mpr funded)]
  split
  · next exceeds =>
    obtain ⟨none, excess⟩ := exceeds
    obtain ⟨inputs, outputs⟩ := plan
    cases none
    have sub := subperm_of_subset (List.Nodup.of_map _ holding.1.distinct) ended.inside
    have gap : LeavesGap params inputs := by
      refine ⟨excess, (ended.gap rfl).imp_right fun little => ?_⟩
      rcases little with dust | whole
      · exact lt_of_le_of_lt (feeExcess_output rising inputs) (lt_of_lt_of_le dust (le_max_left _ _))
      · exact lt_of_le_of_lt (worthwhile.excess_le sub (le_refl 1)) whole
    refine reserves_bind (((releaseAll_along (@rejects_nothing params pool) holding).and (releaseAll_hands _)).mono fun more outcome both => ?_)
    refine both.1.mono fun released _ => ?_
    intro _ _ _
    obtain ⟨later, same, hands⟩ := both.2
    exact ⟨inputs, ⟨past, later, same, holding.1.exact, hands⟩, sub, gap⟩
  · exact finishChange_throws adjustment fun _ _ => trivial

theorem follows_offered (follows : FollowsRule pool past event) :
    Offered (pool.map outputId) past event := by
  intro input given
  match event with
  | ⟨.allocate _ _, .ok (some other)⟩ =>
    cases given
    have picked : input ∈ freeOf pool past := follows.1
    obtain ⟨inside, free⟩ := mem_filter.mp picked
    exact ⟨mem_map_of_mem inside, by simpa using free⟩

theorem wanted_round : Funding.Round params pool false
    ⟨[], (wantedChangeOutputs params params.maxOutputs.toNat ⟨[], []⟩).changeOutputs⟩ := by
  refine ⟨fun _ member => (by cases member), wanted_aboveDust.2, ?_, fun _ none => ?_, fun removes => (by cases removes)⟩
  · exact @wantedChangeOutputs_keeps params _ (fun plan => FirstAtMost params plan.changeOutputs) _ (fun _ is => (by cases is))
      fun plan satoshis first _ _ small => first.append small
  · by_cases room : params.maxOutputs ≤ 0
    · exact .inl room
    · have nothing := @wantedChangeOutputs_none params ⟨[], []⟩ (not_le.mp room) none
      have same : wantedChangeOutputs params params.maxOutputs.toNat ⟨[], []⟩ =
          ⟨[], (wantedChangeOutputs params params.maxOutputs.toNat ⟨[], []⟩).changeOutputs⟩ :=
        congrArg (fun inputs => ChangePlan.mk inputs (wantedChangeOutputs params params.maxOutputs.toNat ⟨[], []⟩).changeOutputs) wanted_inputs
      rw [same] at nothing
      exact .inr (lt_of_le_of_lt nothing (lt_of_lt_of_le one_pos (le_max_left _ _)))

theorem generateChangeSdk_funding (valid : validateGenerateChangeSdkParams params = .ok maxPossible)
    (rising : Monotone params.feeOfSize) (distinct : (pool.map outputId).Nodup)
    (worthwhile : Worthwhile params pool) (fundable : Fundable params pool) (picks : pool.length < fuel)
    (rounds : params.maxOutputs.toNat < fuel) :
    (generateChangeSdk params fuel).Along (FollowsRule pool) (EndsReserved (ThrowsInGap params pool) fun _ _ => True) [] := by
  refine generateChangeSdk_rounds (fun _ _ => follows_offered) rejects_nothing (funding_rounds distinct) wanted_round
    (by simpa using picks) rounds valid reaching_anything fun past plan holding ended _ => ?_
  have funded : 0 ≤ plan.feeExcess params := by
    by_contra short
    have whole := ended.unfunded (not_le.mp short)
    exact absurd (fundable.whole worthwhile rising) (not_le.mpr whole)
  have settled := settleChange_funding rising worthwhile none holding funded ended
  cases maxPossible with
  | none => exact settled
  | some i =>
    unfold settlePlan
    dsimp only
    rw [if_neg (not_lt.mpr funded)]
    exact settled

end

/-- Where every input pays for itself, change generation is short of a fundable pool's funds
only when the inputs it picked leave an excess that no change output can take up. -/
theorem generateChangeSdk_complete (params : GenerateChangeSdkParams) (maxPossible : Option Nat)
    (valid : validateGenerateChangeSdkParams params = .ok maxPossible) (rising : Monotone params.feeOfSize) (pool : List GenerateChangeSdkChangeInput)
    (distinct : (pool.map outputId).Nodup) (worthwhile : Worthwhile params pool) (fundable : Fundable params pool)
    (fuel : Nat) (picks : pool.length < fuel) (rounds : params.maxOutputs.toNat < fuel) (events : List ChangeEvent)
    (outcome : Except ChangeFailure GenerateChangeSdkResult) (follows : Program.Allows (FollowsRule pool) events)
    (answered : (generateChangeSdk params fuel).Answers events outcome) :
    outcome ≠ .error .unfinished ∧ ∀ totalSatoshisNeeded moreSatoshisNeeded,
      outcome = .error (.thrown (.insufficientFunds totalSatoshisNeeded moreSatoshisNeeded)) →
        ∃ inputs, EndsHolding events inputs ∧ inputs.Subperm pool ∧ LeavesGap params inputs := by
  have ends := (generateChangeSdk_funding valid rising distinct worthwhile fundable picks rounds).of_allows answered follows
  match outcome with
  | .error .unfinished => exact ends.elim
  | .error (.thrown error) =>
    refine ⟨by simp, fun totalSatoshisNeeded moreSatoshisNeeded same => ?_⟩
    cases same
    exact ends totalSatoshisNeeded moreSatoshisNeeded rfl
  | .ok r =>
    refine ⟨by simp, fun totalSatoshisNeeded moreSatoshisNeeded same => ?_⟩
    cases same

theorem sampleChangeParams_rising : Monotone sampleChangeParams.feeOfSize := by
  intro smaller larger le
  show ((smaller : Int) + 999) / 1000 ≤ ((larger : Int) + 999) / 1000
  omega

/-- One input is enough, and leaves enough for change. -/
theorem generateChangeSdk_complete_sample :
    let pool : List GenerateChangeSdkChangeInput := [⟨1, 5000⟩, ⟨2, 900⟩]
    let events := [allocation 1003 1001 (.ok (some ⟨1, 5000⟩))]
    Fundable sampleChangeParams pool ∧ ∀ outcome, (generateChangeSdk sampleChangeParams 10).Answers events outcome → outcome ≠ .error .unfinished := by
  intro pool events
  have fundable : Fundable sampleChangeParams pool := by
    refine ⟨[⟨1, 5000⟩], List.Sublist.subperm (by decide), .inr (by decide +kernel)⟩
  refine ⟨fundable, fun outcome answered => ?_⟩
  apply (generateChangeSdk_complete sampleChangeParams none rfl sampleChangeParams_rising pool (by decide) ?_ fundable 10 (by decide) (by decide) events outcome
    ?_ answered).1
  · decide +kernel
  · apply Program.allows_one
    show Picks (freeOf pool []) 1003 (some 1001) (some ⟨1, 5000⟩)
    decide

def dearChangeParams : GenerateChangeSdkParams := { sampleChangeParams with feeOfSize size := size, targetNetCount := some 1 }

/-- A pool that could be funded is not: the least output over the target leaves an excess
below the dust floor, or an output too small for its own fee is taken with the others. -/
theorem fundable_pools_rejected :
    (¬ ∀ (params : GenerateChangeSdkParams) (pool : List GenerateChangeSdkChangeInput) (fuel : Nat) (events : List ChangeEvent)
      (outcome : Except ChangeFailure GenerateChangeSdkResult), Monotone params.feeOfSize → (pool.map outputId).Nodup →
      Worthwhile params pool → Fundable params pool → Program.Allows (FollowsRule pool) events → (generateChangeSdk params fuel).Answers events outcome →
      ∀ totalSatoshisNeeded moreSatoshisNeeded, outcome ≠ .error (.thrown (.insufficientFunds totalSatoshisNeeded moreSatoshisNeeded))) ∧
    ¬ ∀ (params : GenerateChangeSdkParams) (pool : List GenerateChangeSdkChangeInput) (fuel : Nat) (events : List ChangeEvent)
      (outcome : Except ChangeFailure GenerateChangeSdkResult), Monotone params.feeOfSize → (pool.map outputId).Nodup →
      (∀ selection, selection.Subperm pool → ¬ LeavesGap params selection) → Fundable params pool → Program.Allows (FollowsRule pool) events →
      (generateChangeSdk params fuel).Answers events outcome →
      ∀ totalSatoshisNeeded moreSatoshisNeeded, outcome ≠ .error (.thrown (.insufficientFunds totalSatoshisNeeded moreSatoshisNeeded)) := by
  constructor
  · intro complete
    have answered : (generateChangeSdk sampleChangeParams 10).Answers [allocation 1003 1001 (.ok (some ⟨1, 1002⟩)), ⟨.release 1, .ok ()⟩]
        (.error (.thrown (.insufficientFunds 1001 1))) := Program.answers_of_replay (by decide +kernel)
    refine complete sampleChangeParams [⟨1, 1002⟩, ⟨2, 500⟩] 10 _ _ sampleChangeParams_rising (by decide) (by decide +kernel) ?_ ?_ answered 1001 1 rfl
    · exact ⟨[⟨1, 1002⟩, ⟨2, 500⟩], .refl _, .inr (by decide +kernel)⟩
    · refine @Program.Allows.append _ _ [_] _ (Program.allows_one ?_) trivial
      show Picks (freeOf [⟨1, 1002⟩, ⟨2, 500⟩] []) 1003 (some 1001) (some ⟨1, 1002⟩)
      decide
  · intro complete
    have answered : (generateChangeSdk dearChangeParams 10).Answers [⟨.allocate 3644 none, .ok (some ⟨1, 1192⟩)⟩, ⟨.allocate 2600 none, .ok (some ⟨2, 1⟩)⟩,
        ⟨.allocate 2747 none, .ok none⟩, ⟨.release 2, .ok ()⟩, ⟨.release 1, .ok ()⟩] (.error (.thrown (.insufficientFunds 1340 147))) :=
      Program.answers_of_replay (by decide +kernel)
    refine complete dearChangeParams [⟨1, 1192⟩, ⟨2, 1⟩] 10 _ _ (fun _ _ => Int.ofNat_le.mpr) (by decide) ?_ ?_ ?_ answered 1340 147 rfl
    · rintro selection ⟨part, same, sublist⟩ gap
      have excess : 0 < (ChangePlan.mk part []).feeExcess dearChangeParams := lt_of_lt_of_eq gap.1 (feeExcess_perm same).symm
      have none : ∀ part ∈ [(⟨1, 1192⟩ : GenerateChangeSdkChangeInput), ⟨2, 1⟩].sublists, ¬ 0 < (ChangePlan.mk part []).feeExcess dearChangeParams := by
        decide +kernel
      exact none part (mem_sublists.mpr sublist) excess
    · exact ⟨[⟨1, 1192⟩], List.Sublist.subperm (by decide), .inl (by decide +kernel)⟩
    · refine @Program.Allows.append _ _ [_, _, _, _] _ (@Program.Allows.append _ _ [_, _, _] _ (@Program.Allows.append _ _ [_, _] _
        (@Program.Allows.append _ _ [_] _ (Program.allows_one ?_) ?_) ?_) trivial) trivial
      · show Picks (freeOf [⟨1, 1192⟩, ⟨2, 1⟩] []) 3644 none (some ⟨1, 1192⟩)
        decide
      · show Picks (freeOf [⟨1, 1192⟩, ⟨2, 1⟩] [⟨.allocate 3644 none, .ok (some ⟨1, 1192⟩)⟩]) 2600 none (some ⟨2, 1⟩)
        decide
      · show Picks (freeOf [⟨1, 1192⟩, ⟨2, 1⟩] [⟨.allocate 3644 none, .ok (some ⟨1, 1192⟩)⟩, ⟨.allocate 2600 none, .ok (some ⟨2, 1⟩)⟩]) 2747 none none
        decide

end WalletToolbox

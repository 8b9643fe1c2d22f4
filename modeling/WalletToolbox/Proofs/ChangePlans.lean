import WalletToolbox.Provider.GenerateChange
import Mathlib.Algebra.BigOperators.Group.List.Basic

/-! What the steps of change generation do to a plan: outputs are added at the end, never
below the dust floor, and taken away from the end; the excess that is spread over them
pays the fee exactly. -/

namespace WalletToolbox
open ChangePlan List

def AboveDust (params : GenerateChangeSdkParams) (outputs : List GenerateChangeSdkOutput) : Prop :=
  ∀ output ∈ outputs, params.dustFloor ≤ output.satoshis

def GenerateChangeSdkParams.firstFloor (params : GenerateChangeSdkParams) : Int := max params.dustFloor params.changeFirstSatoshis

section
variable {params : GenerateChangeSdkParams} {plan : ChangePlan}

theorem AboveDust.of_suffix (above : AboveDust params outputs)
    (suffix : kept.reverse <:+ outputs.reverse) : AboveDust params kept := by
  intro output member
  apply above
  rw [← mem_reverse]
  exact suffix.subset (mem_reverse.mpr member)

theorem AboveDust.append {outputs output} (above : AboveDust params outputs)
    (enough : params.dustFloor ≤ output.satoshis) : AboveDust params (outputs ++ [output]) := by
  intro other member
  rcases mem_append.mp member with earlier | last
  · exact above other earlier
  · rw [mem_singleton.mp last]
    exact enough

def FirstAtMost (params : GenerateChangeSdkParams) (outputs : List GenerateChangeSdkOutput) : Prop :=
  ∀ output, outputs.head? = some output → output.satoshis ≤ params.firstFloor

theorem FirstAtMost.append {outputs output} (first : FirstAtMost params outputs)
    (small : outputs = [] → output.satoshis ≤ params.firstFloor) : FirstAtMost params (outputs ++ [output]) := by
  intro head is
  cases outputs with
  | nil =>
    cases is
    exact small rfl
  | cons other rest => exact first head is

theorem FirstAtMost.of_suffix (first : FirstAtMost params outputs)
    (suffix : kept.reverse <:+ outputs.reverse) : FirstAtMost params kept := by
  intro head is
  apply first
  obtain ⟨dropped, same⟩ := reverse_suffix.mp suffix
  rw [← same, head?_append, is]
  rfl

@[simp] theorem addChangeOutput_outputs (satoshis : Int) :
    (plan.addChangeOutput params satoshis).changeOutputs = plan.changeOutputs ++ [⟨satoshis, params.changeLockingScriptLength⟩] := rfl

theorem maybeAddChangeOutput_cases (removingOutputs : Bool) (ao : Nat) : maybeAddChangeOutput params removingOutputs ao plan = plan ∨
    ∃ satoshis, maybeAddChangeOutput params removingOutputs ao plan = plan.addChangeOutput params satoshis ∧ removingOutputs = false ∧
      plan.changeOutputs.length < params.maxOutputs ∧ params.dustFloor ≤ satoshis ∧ (plan.changeOutputs = [] → satoshis ≤ params.firstFloor) := by
  unfold maybeAddChangeOutput
  split
  · exact .inl rfl
  · next adds =>
    split
    · exact .inl rfl
    · next can =>
      have kept : removingOutputs = false := by simpa using fun is => adds (.inl is)
      by_cases enough : params.dustFloor ≤ min (plan.feeExcess params)
          (max params.dustFloor (if plan.changeOutputs = [] then params.changeFirstSatoshis else params.changeInitialSatoshis))
      · refine .inr ⟨_, if_pos enough, kept, (not_not.mp can).2, enough, fun none => ?_⟩
        rw [if_pos none]
        exact min_le_right _ _
      · exact .inl (if_neg enough)

theorem maybeAddChangeOutput_removing (ao : Nat) : maybeAddChangeOutput params true ao plan = plan := if_pos (.inl rfl)

theorem maybeAddChangeOutput_inputs (removingOutputs : Bool) (ao : Nat) :
    (maybeAddChangeOutput params removingOutputs ao plan).allocatedChangeInputs = plan.allocatedChangeInputs := by
  rcases @maybeAddChangeOutput_cases params plan removingOutputs ao with same | ⟨satoshis, same, _⟩
  · rw [same]
  · rw [same]
    rfl

theorem maybeAddChangeOutput_takes {ao} (room : 0 < params.maxOutputs) (excess : params.dustFloor ≤ plan.feeExcess params) :
    (maybeAddChangeOutput params false ao plan).changeOutputs ≠ [] := by
  have positive : 1 ≤ params.dustFloor := le_max_left _ _
  unfold maybeAddChangeOutput
  rw [if_neg (by simp; omega)]
  by_cases none : plan.changeOutputs = []
  · rw [if_neg (not_not.mpr ⟨.inr none, by simpa [none] using room⟩)]
    dsimp only
    rw [if_pos (le_min excess (le_max_left _ _))]
    simp
  · split
    · exact none
    · dsimp only
      split
      · simp
      · exact none

theorem wantedChangeOutputs_keeps {holds : ChangePlan → Prop} (fuel : Nat) (start : holds plan)
    (adds : ∀ (plan : ChangePlan) (satoshis : Int), holds plan → plan.changeOutputs.length < params.maxOutputs → params.dustFloor ≤ satoshis →
      (plan.changeOutputs = [] → satoshis ≤ params.firstFloor) → holds (plan.addChangeOutput params satoshis)) :
    holds (wantedChangeOutputs params fuel plan) := by
  induction fuel generalizing plan with
  | zero => exact start
  | succ more ih =>
    unfold wantedChangeOutputs
    split
    · next wants =>
      apply ih
      apply adds plan _ start wants.1 (le_max_left _ _)
      intro none
      rw [if_pos none]
      exact le_refl _
    · exact start

theorem wantedChangeOutputs_grows (fuel : Nat) : plan.changeOutputs.length ≤ (wantedChangeOutputs params fuel plan).changeOutputs.length := by
  induction fuel generalizing plan with
  | zero => exact le_refl _
  | succ more ih =>
    unfold wantedChangeOutputs
    split
    · refine le_trans ?_ ih
      simp
    · exact le_refl _

theorem wantedChangeOutputs_none (room : 0 < params.maxOutputs) (none : (wantedChangeOutputs params params.maxOutputs.toNat plan).changeOutputs = []) :
    (wantedChangeOutputs params params.maxOutputs.toNat plan).feeExcess params ≤ 0 := by
  obtain ⟨more, fuel⟩ : ∃ more, params.maxOutputs.toNat = more + 1 := ⟨params.maxOutputs.toNat - 1, by omega⟩
  rw [fuel] at none ⊢
  unfold wantedChangeOutputs at none ⊢
  split
  · next wants =>
    rw [if_pos wants] at none
    have grows := @wantedChangeOutputs_grows params (plan.addChangeOutput params
      (max params.dustFloor (if plan.changeOutputs = [] then params.changeFirstSatoshis else params.changeInitialSatoshis))) more
    rw [none] at grows
    simp at grows
  · next wants =>
    rw [if_neg wants] at none
    by_contra positive
    exact wants ⟨by simpa [none] using room, .inr ⟨none, by omega⟩⟩

theorem dropUnfunded_suffix (inputs) (outputs) :
    dropUnfunded params inputs outputs <:+ outputs := by
  induction outputs with
  | nil => exact suffix_refl _
  | cons last rest ih =>
    unfold dropUnfunded
    split
    · exact ih.trans (suffix_cons _ _)
    · exact suffix_refl _

theorem dropUnfunded_funded (inputs) (outputs) :
    dropUnfunded params inputs outputs = [] ∨ 0 ≤ (mk inputs (dropUnfunded params inputs outputs).reverse).feeExcess params := by
  induction outputs with
  | nil => exact .inl rfl
  | cons last rest ih =>
    unfold dropUnfunded
    split
    · exact ih
    · next funded => exact .inr (not_lt.mp funded)

theorem dropUnfunded_shorter {inputs outputs} (some : outputs ≠ [])
    (starved : (mk inputs outputs.reverse).feeExcess params < 0) : (dropUnfunded params inputs outputs).length < outputs.length := by
  cases outputs with
  | nil => exact absurd rfl some
  | cons last rest =>
    unfold dropUnfunded
    rw [if_pos starved]
    exact Nat.lt_succ_of_le (dropUnfunded_suffix inputs rest).length_le

theorem dropUnfunded_none
    (none : dropUnfunded params inputs outputs = []) (last : outputs.getLast? = some first) :
    (mk inputs [first]).feeExcess params < 0 := by
  induction outputs with
  | nil => cases last
  | cons output rest ih =>
    unfold dropUnfunded at none
    split at none
    · next starved =>
      cases rest with
      | nil =>
        cases last
        exact starved
      | cons next others => exact ih none (by simpa using last)
    · cases none

theorem dropChurn_suffix (inputs) (outputs) :
    dropChurn inputs outputs <:+ outputs := by
  induction outputs generalizing inputs with
  | nil => exact suffix_refl _
  | cons last rest ih =>
    unfold dropChurn
    split
    · split
      · exact suffix_refl _
      · exact (ih _).trans (suffix_cons _ _)
    · exact suffix_refl _

theorem dropChurn_some {inputs outputs} (some : outputs ≠ []) :
    dropChurn inputs outputs ≠ [] := by
  induction outputs generalizing inputs with
  | nil => exact some
  | cons last rest ih =>
    unfold dropChurn
    split
    · next more =>
      split
      · exact some
      · exact ih more.2
    · exact some

structure Spreads (dustFloor : Int) (before after : List GenerateChangeSdkOutput) (excess left : Int) : Prop where
  nothing : left = 0
  length : after.length = before.length
  total : (after.map GenerateChangeSdkOutput.satoshis).sum = (before.map GenerateChangeSdkOutput.satoshis).sum + excess
  above : (∀ output ∈ before, dustFloor ≤ output.satoshis) → ∀ output ∈ after, dustFloor ≤ output.satoshis

theorem sum_modify {outputs : List GenerateChangeSdkOutput} (inside : index < outputs.length) :
    ((outputs.modify index fun output => { output with satoshis := output.satoshis + sats }).map GenerateChangeSdkOutput.satoshis).sum =
      (outputs.map GenerateChangeSdkOutput.satoshis).sum + sats := by
  induction outputs generalizing index with
  | nil => exact absurd inside (Nat.not_lt_zero _)
  | cons first rest ih =>
    cases index with
    | zero =>
      simp
      omega
    | succ index =>
      have later := ih (Nat.lt_of_succ_lt_succ inside)
      simp only [modify_succ_cons, map_cons, sum_cons, later]
      omega

theorem mem_modify_above {dustFloor sats : Int} (gains : 0 ≤ sats) {index : Nat} {outputs : List GenerateChangeSdkOutput}
    (above : ∀ output ∈ outputs, dustFloor ≤ output.satoshis) :
    ∀ output ∈ outputs.modify index fun output => { output with satoshis := output.satoshis + sats }, dustFloor ≤ output.satoshis := by
  induction outputs generalizing index with
  | nil =>
    intro output member
    simp at member
  | cons first rest ih =>
    have head := above first (.head _)
    have tail := fun output member => above output (.tail _ member)
    cases index with
    | zero =>
      intro output member
      rcases mem_cons.mp (by simpa using member) with rfl | later
      · exact le_trans head (by simpa using gains)
      · exact tail output later
    | succ index =>
      intro output member
      rw [modify_succ_cons] at member
      rcases mem_cons.mp member with rfl | later
      · exact head
      · exact ih tail output later

theorem rand_bounds (draw min max : Nat) (ordered : min ≤ max) : min ≤ params.rand draw min max ∧ params.rand draw min max ≤ max := by
  unfold GenerateChangeSdkParams.rand
  refine ⟨Nat.le_add_left _ _, ?_⟩
  have below := (params.random draw).isLt
  have scaled : (params.random draw).val * (max - min + 1) < (max - min + 1) * 4294967296 := by
    rw [Nat.mul_comm (max - min + 1)]
    exact Nat.mul_lt_mul_of_pos_right below (Nat.succ_pos _)
  have less := (Nat.div_lt_iff_lt_mul (by decide : 0 < 4294967296)).mpr scaled
  omega

theorem Spreads.step {dustFloor excess sats left before middle after}
    (length : middle.length = before.length)
    (total : (middle.map GenerateChangeSdkOutput.satoshis).sum = (before.map GenerateChangeSdkOutput.satoshis).sum + sats)
    (above : (∀ output ∈ before, dustFloor ≤ output.satoshis) → ∀ output ∈ middle, dustFloor ≤ output.satoshis)
    (rest : Spreads dustFloor middle after (excess - sats) left) : Spreads dustFloor before after excess left := by
  refine ⟨rest.nothing, rest.length.trans length, ?_, fun holds => rest.above (above holds)⟩
  rw [rest.total, total]
  omega

theorem distributeExcessFees_spreads (dustFloor : Int) {fuel draw : Nat} {outputs : List GenerateChangeSdkOutput} {excess : Int} (some : outputs ≠ [])
    (positive : 0 ≤ excess) (enough : excess.toNat ≤ fuel) :
    Spreads dustFloor outputs (distributeExcessFees params fuel draw outputs excess).1 excess (distributeExcessFees params fuel draw outputs excess).2 := by
  induction fuel generalizing draw outputs excess with
  | zero =>
    have none : excess = 0 := by omega
    subst none
    exact ⟨rfl, rfl, by simp [distributeExcessFees], fun holds => holds⟩
  | succ fuel ih =>
    unfold distributeExcessFees
    split
    · next nothing =>
      have none : excess = 0 := by omega
      subst none
      exact ⟨rfl, rfl, by simp, fun holds => holds⟩
    · next more =>
      split
      · exact absurd rfl some
      · next only =>
        refine ⟨rfl, rfl, by simp, fun holds output member => ?_⟩
        cases mem_singleton.mp member
        have above := holds only (.head _)
        show dustFloor ≤ only.satoshis + excess
        omega
      · next first second rest =>
        split
        · next small =>
          obtain ⟨sats, same⟩ : ∃ sats, sats = min excess (params.changeInitialSatoshis - first.satoshis) := ⟨_, rfl⟩
          have bounds : 0 < sats ∧ sats ≤ excess := by
            rw [same]
            exact ⟨lt_min (by omega) (by omega), min_le_left _ _⟩
          simp only [← same]
          have left : 0 ≤ excess - sats ∧ (excess - sats).toNat ≤ fuel := by omega
          refine (ih (cons_ne_nil _ _) left.1 left.2).step ?_ ?_ ?_
          · rfl
          · simp
            omega
          · exact @mem_modify_above dustFloor _ bounds.1.le 0 (first :: second :: rest)
        · have share := (@rand_bounds params draw 2500 5000 (by decide)).2
          obtain ⟨sats, same⟩ : ∃ sats, sats = max 1 (↑(params.rand draw 2500 5000) * excess / 10000) := ⟨_, rfl⟩
          have bounds : 0 < sats ∧ sats ≤ excess := by
            rw [same]
            refine ⟨lt_max_of_lt_left one_pos, max_le (by omega) ?_⟩
            apply Int.ediv_le_of_le_mul (by decide)
            have scaled : (params.rand draw 2500 5000 : Int) * excess ≤ 10000 * excess := by
              apply Int.mul_le_mul_of_nonneg_right (by omega) positive
            omega
          have inside : params.rand (draw + 1) 0 (rest.length + 1) < (first :: second :: rest).length := by
            have last := (@rand_bounds params (draw + 1) 0 (rest.length + 1) (Nat.zero_le _)).2
            simp only [length_cons]
            omega
          simp only [← same]
          have left : 0 ≤ excess - sats ∧ (excess - sats).toNat ≤ fuel := by omega
          refine (ih ?_ left.1 left.2).step (length_modify _ _ _) (sum_modify inside) (mem_modify_above bounds.1.le)
          intro none
          have same := congrArg length none
          simp at same

theorem removeDustOutputs_above (above : ∀ output ∈ outputs, dustFloor ≤ output.satoshis)
    (count : Nat) : removeDustOutputs dustFloor count outputs = outputs := by
  induction count with
  | zero => rfl
  | succ i ih =>
    unfold removeDustOutputs
    split
    · exact ih
    · next removed found =>
      rw [if_neg]
      · exact ih
      · intro dust
        have enough := above removed (mem_of_getElem? found)
        omega

structure Finishes (params : GenerateChangeSdkParams) (adjustment : Option (Nat × Int)) (plan : ChangePlan) (r : GenerateChangeSdkResult) : Prop where
  inputs : r.allocatedChangeInputs = plan.allocatedChangeInputs
  adjusted : r.maxPossibleSatoshisAdjustment = adjustment
  outputs : r.changeOutputs.length = plan.changeOutputs.length
  above : AboveDust params r.changeOutputs
  fee : r.fee = params.feeOfSize (plan.size params 0 0)
  paid : (mk r.allocatedChangeInputs r.changeOutputs).fee params = r.fee

theorem finishChange_returns (rates : ∀ size, 0 ≤ params.feeOfSize size) (adjustment) (above : AboveDust params plan.changeOutputs)
    (funded : 0 ≤ plan.feeExcess params) (taken : plan.changeOutputs = [] → plan.feeExcess params ≤ 0) :
    ∃ r, finishChange params adjustment plan = .done r ∧ Finishes params adjustment plan r := by
  obtain ⟨spread, same⟩ : ∃ spread, spread = (distributeExcessFees params (plan.feeExcess params).toNat 0 plan.changeOutputs (plan.feeExcess params)).1 :=
    ⟨_, rfl⟩
  have spreads : spread.length = plan.changeOutputs.length ∧
      (spread.map GenerateChangeSdkOutput.satoshis).sum = (plan.changeOutputs.map GenerateChangeSdkOutput.satoshis).sum + plan.feeExcess params ∧
      ∀ output ∈ spread, params.dustFloor ≤ output.satoshis := by
    by_cases none : plan.changeOutputs = []
    · have exact : plan.feeExcess params = 0 := le_antisymm (taken none) funded
      rw [exact] at same
      rw [same, exact]
      exact ⟨rfl, by simp [distributeExcessFees], above⟩
    · have does := @distributeExcessFees_spreads params params.dustFloor _ 0 plan.changeOutputs _ none funded (le_refl _)
      rw [← same] at does
      exact ⟨does.length, does.total, does.above above⟩
  obtain ⟨length, total, enough⟩ := spreads
  have kept : removeDustOutputs params.dustFloor spread.length spread = spread := removeDustOutputs_above enough _
  have size : (mk plan.allocatedChangeInputs spread).size params 0 0 = plan.size params 0 0 := by
    unfold ChangePlan.size
    dsimp only
    rw [length]
  have fee : (mk plan.allocatedChangeInputs spread).fee params = params.feeOfSize (plan.size params 0 0) := by
    have excess : plan.feeExcess params = plan.fee params - params.feeOfSize (plan.size params 0 0) := rfl
    unfold ChangePlan.fee funding change at excess ⊢
    dsimp only
    rw [total]
    omega
  have valid : (validateGenerateChangeSdkResult params ⟨plan.allocatedChangeInputs, spread, plan.size params 0 0, params.feeOfSize (plan.size params 0 0),
      adjustment⟩).1 = true := decide_eq_true ⟨rates _, fee, rfl⟩
  refine ⟨⟨plan.allocatedChangeInputs, spread, plan.size params 0 0, params.feeOfSize (plan.size params 0 0), adjustment⟩, ?_,
    ⟨rfl, rfl, length, enough, rfl, fee⟩⟩
  unfold finishChange
  dsimp only
  rw [← same, kept, size, fee]
  exact if_pos valid

theorem hasMaxPossibleOutput_found
    (valid : hasMaxPossibleOutput outputs found = .ok result) (is : result = some i) :
    found = some i ∨ ∃ output, (output, i) ∈ outputs ∧ output.satoshis = maxPossibleSatoshis := by
  induction outputs generalizing found with
  | nil =>
    cases valid
    exact .inl is
  | cons first rest ih =>
    obtain ⟨output, position⟩ := first
    unfold hasMaxPossibleOutput at valid
    obtain ⟨_, _, valid⟩ := Effects.bind_eq_ok.mp valid
    split at valid
    · next most =>
      split at valid
      · cases valid
      · rcases ih valid with same | ⟨other, member, possible⟩
        · cases same
          exact .inr ⟨output, .head _, most⟩
        · exact .inr ⟨other, .tail _ member, possible⟩
    · rcases ih valid with same | ⟨other, member, possible⟩
      · exact .inl same
      · exact .inr ⟨other, .tail _ member, possible⟩

theorem validParams_maxPossible (valid : validateGenerateChangeSdkParams params = .ok (some i)) :
    ∃ output, params.fixedOutputs[i]? = some output ∧ output.satoshis = maxPossibleSatoshis := by
  unfold validateGenerateChangeSdkParams at valid
  obtain ⟨_, _, valid⟩ := Effects.bind_eq_ok.mp valid
  obtain ⟨found, result, valid⟩ := Effects.bind_eq_ok.mp valid
  obtain ⟨_, _, valid⟩ := Effects.bind_eq_ok.mp valid
  obtain ⟨_, _, valid⟩ := Effects.bind_eq_ok.mp valid
  cases valid
  rcases hasMaxPossibleOutput_found result rfl with impossible | ⟨output, member, most⟩
  · cases impossible
  · exact ⟨output, mem_zipIdx_iff_getElem?.mp member, most⟩

/-- Two such outputs are refused. -/
theorem hasMaxPossibleOutput_only (valid : hasMaxPossibleOutput outputs found = .ok result) :
    (∀ i, found = some i → result = some i) ∧ ∀ output i, (output, i) ∈ outputs → output.satoshis = maxPossibleSatoshis → result = some i := by
  induction outputs generalizing found with
  | nil =>
    cases valid
    exact ⟨fun _ same => same, fun _ _ member => (by cases member)⟩
  | cons first rest ih =>
    obtain ⟨output, position⟩ := first
    unfold hasMaxPossibleOutput at valid
    obtain ⟨_, _, valid⟩ := Effects.bind_eq_ok.mp valid
    split at valid
    · split at valid
      · cases valid
      · next single =>
        obtain ⟨kept, others⟩ := ih valid
        refine ⟨fun i same => absurd (by rw [same]; rfl) single, fun other i member possible => ?_⟩
        rcases mem_cons.mp member with same | inRest
        · cases same
          exact kept _ rfl
        · exact others other i inRest possible
    · next less =>
      obtain ⟨kept, others⟩ := ih valid
      refine ⟨kept, fun other i member possible => ?_⟩
      rcases mem_cons.mp member with same | inRest
      · cases same
        exact absurd possible less
      · exact others other i inRest possible

theorem validParams_only (valid : validateGenerateChangeSdkParams params = .ok maxPossible)
    (found : params.fixedOutputs[i]? = some output) (most : output.satoshis = maxPossibleSatoshis) : maxPossible = some i := by
  unfold validateGenerateChangeSdkParams at valid
  obtain ⟨_, _, valid⟩ := Effects.bind_eq_ok.mp valid
  obtain ⟨result, checked, valid⟩ := Effects.bind_eq_ok.mp valid
  obtain ⟨_, _, valid⟩ := Effects.bind_eq_ok.mp valid
  obtain ⟨_, _, valid⟩ := Effects.bind_eq_ok.mp valid
  cases valid
  exact (hasMaxPossibleOutput_only checked).2 output i (mem_zipIdx_iff_getElem?.mpr found) most

/-- The parameters with the amount that is possible. -/
def GenerateChangeSdkParams.adjusted (params : GenerateChangeSdkParams) : Option (Nat × Int) → GenerateChangeSdkParams
  | none => params
  | some (i, satoshis) => { params with fixedOutputs := params.fixedOutputs.modify i fun output => { output with satoshis } }

theorem adjustMaxPossible_adjusted (ok : adjustMaxPossible params i plan = .ok (adjusted, satoshis)) : adjusted = params.adjusted (some (i, satoshis)) := by
  unfold adjustMaxPossible at ok
  split at ok
  · cases ok
  · next output found =>
    split at ok
    · cases ok
    · cases ok
      simp [GenerateChangeSdkParams.adjusted, modify_eq_set_getElem?, found]

theorem adjustMaxPossible_ok {i output} (found : params.fixedOutputs[i]? = some output)
    (most : output.satoshis = maxPossibleSatoshis) :
    ∃ adjusted satoshis, adjustMaxPossible params i plan = .ok (adjusted, satoshis) ∧ adjusted.feeOfSize = params.feeOfSize ∧
      adjusted.dustFloor = params.dustFloor ∧ plan.feeExcess adjusted = 0 ∧ satoshis = maxPossibleSatoshis + plan.feeExcess params ∧
      ∀ inputs outputs, adjusted.sizeWith inputs outputs = params.sizeWith inputs outputs := by
  obtain ⟨inside, same⟩ := List.getElem?_eq_some_iff.mp found
  have lengths : (params.fixedOutputs.set i { output with satoshis := output.satoshis + plan.feeExcess params }).map
      GenerateChangeSdkOutput.lockingScriptLength = params.fixedOutputs.map GenerateChangeSdkOutput.lockingScriptLength := by
    apply List.ext_getElem (by simp)
    intro position first second
    simp only [List.getElem_map, List.getElem_set]
    split
    · next here =>
      subst here
      rw [same]
    · rfl
  have spending : ((params.fixedOutputs.set i { output with satoshis := output.satoshis + plan.feeExcess params }).map
      GenerateChangeSdkOutput.satoshis).sum = params.spending + plan.feeExcess params := by
    unfold GenerateChangeSdkParams.spending
    rw [List.map_set, List.sum_set']
    simp [inside, same]
  unfold adjustMaxPossible
  rw [found]
  dsimp only
  rw [if_neg (not_not.mpr most)]
  refine ⟨_, _, rfl, rfl, rfl, ?_, by rw [most], fun inputs outputs => ?_⟩
  · have excess : plan.feeExcess params = plan.funding params - params.spending - plan.change - params.feeOfSize (plan.size params 0 0) := rfl
    show plan.funding params - _ - plan.change - params.feeOfSize (plan.size _ 0 0) = 0
    unfold ChangePlan.size GenerateChangeSdkParams.sizeWith GenerateChangeSdkParams.spending
    dsimp only
    rw [lengths, spending]
    unfold ChangePlan.size GenerateChangeSdkParams.sizeWith at excess
    omega
  · unfold GenerateChangeSdkParams.sizeWith
    dsimp only
    rw [lengths]

end

end WalletToolbox

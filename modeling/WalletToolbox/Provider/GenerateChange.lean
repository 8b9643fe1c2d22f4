import WalletToolbox.Async.Pool
import WalletToolbox.Storage.Keys
import WalletToolbox.Provider.ActionPlans

/-! How the inputs and outputs of change are chosen. Change inputs are allocated from
storage one at a time and released again, so what the function awaits is the allocation
and the release of an output. -/

namespace WalletToolbox
open Async

/-- An output of this satoshis amount will be adjusted to the largest fundable amount. -/
def maxPossibleSatoshis : Int := 2099999999999999

def maxChangeOutputsPerTransaction : Int := 8

structure GenerateChangeSdkInput where
  satoshis : Int
  unlockingScriptLength : Nat

structure GenerateChangeSdkOutput where
  satoshis : Int
  lockingScriptLength : Nat
deriving DecidableEq, Repr

structure GenerateChangeSdkChangeInput where
  outputId : Nat
  satoshis : Int
deriving DecidableEq, Repr

structure GenerateChangeSdkParams where
  fixedInputs : List GenerateChangeSdkInput
  fixedOutputs : List GenerateChangeSdkOutput
  /-- `Math.ceil((size / 1000) * satsPerKb)`, however it is rounded. -/
  feeOfSize : Nat → Int
  targetNetCount : Option Int
  changeInitialSatoshis : Int
  changeFirstSatoshis : Int
  changeLockingScriptLength : Nat
  changeUnlockingScriptLength : Nat
  maxChangeOutputs : Option Int
  random : Nat → RandomValue

structure GenerateChangeSdkResult where
  allocatedChangeInputs : List GenerateChangeSdkChangeInput
  changeOutputs : List GenerateChangeSdkOutput
  size : Nat
  fee : Int
  maxPossibleSatoshisAdjustment : Option (Nat × Int)
deriving DecidableEq, Repr

inductive ChangeOp where
  | allocate (targetSatoshis : Int) (exactSatoshis : Option Int)
  | release (outputId : Nat)
deriving DecidableEq, Repr

@[reducible] def ChangeOp.Reply : ChangeOp → Type
  | .allocate _ _ => Except WalletError (Option GenerateChangeSdkChangeInput)
  | .release _ => Except WalletError Unit

abbrev changeStorage : Interface := ⟨ChangeOp, ChangeOp.Reply⟩

/-- How the function ends without a result: it throws, or its loops are cut off. -/
inductive ChangeFailure where
  | thrown (error : WalletError)
  | unfinished
deriving DecidableEq, Repr

abbrev ChangeM := Program changeStorage ChangeFailure

namespace ChangeM

def throws {α : Type} (error : WalletError) : ChangeM α := .fail (.thrown error)

def ofExcept {α : Type} : Except WalletError α → ChangeM α
  | .ok value => .done value
  | .error error => throws error

def allocateChangeInput (targetSatoshis : Int) (exactSatoshis : Option Int) : ChangeM (Option GenerateChangeSdkChangeInput) :=
  .await (.allocate targetSatoshis exactSatoshis) ofExcept

def releaseChangeInput (outputId : Nat) : ChangeM Unit := .await (.release outputId) ofExcept

end ChangeM

def validateChangeSatoshis (satoshis : Int) (name : String) (min : Int) : Except WalletError Unit :=
  if satoshis < 0 ∨ 2100000000000000 < satoshis then .error (.invalidParameter name "a valid number of satoshis")
  else if satoshis < min then .error (.invalidParameter name ("at least " ++ toString min ++ " satoshis."))
  else .ok ()

/-- The index of the output that takes what is possible; there may be one. -/
def hasMaxPossibleOutput : List (GenerateChangeSdkOutput × Nat) → Option Nat → Except WalletError (Option Nat)
  | [], found => .ok found
  | (output, i) :: rest, found => do
    validateChangeSatoshis output.satoshis ("fixedOutputs[" ++ toString i ++ "].satoshis") 0
    if output.satoshis = maxPossibleSatoshis then
      if found.isSome then
        .error (.invalidParameter ("fixedOutputs[" ++ toString i ++ "].satoshis")
          "valid satoshis amount. Only one 'maxPossibleSatoshis' output allowed.")
      else hasMaxPossibleOutput rest (some i)
    else hasMaxPossibleOutput rest found

def validateGenerateChangeSdkParams (params : GenerateChangeSdkParams) : Except WalletError (Option Nat) := do
  params.fixedInputs.zipIdx.forM fun (input, i) => validateChangeSatoshis input.satoshis ("fixedInputs[" ++ toString i ++ "].satoshis") 0
  let maxPossible ← hasMaxPossibleOutput params.fixedOutputs.zipIdx none
  validateChangeSatoshis params.changeFirstSatoshis "changeFirstSatoshis" 1
  validateChangeSatoshis params.changeInitialSatoshis "changeInitialSatoshis" 1
  return maxPossible

namespace GenerateChangeSdkParams
variable (params : GenerateChangeSdkParams)

def dustFloor : Int :=
  max 1 (params.feeOfSize (transactionSize [params.changeUnlockingScriptLength] [params.changeLockingScriptLength]) * 2)

def maxOutputs : Int := params.maxChangeOutputs.getD maxChangeOutputsPerTransaction

def hasTargetNetCount : Bool := params.targetNetCount.isSome

def targetCount : Int := min (params.targetNetCount.getD 0) params.maxOutputs

def rand (draw min max : Nat) : Nat := (params.random draw).val * (max - min + 1) / 4294967296 + min

def spending : Int := (params.fixedOutputs.map GenerateChangeSdkOutput.satoshis).sum

def fixedFunding : Int := (params.fixedInputs.map GenerateChangeSdkInput.satoshis).sum

def sizeWith (changeInputs changeOutputs : Nat) : Nat :=
  transactionSize
    (params.fixedInputs.map GenerateChangeSdkInput.unlockingScriptLength ++ List.replicate changeInputs params.changeUnlockingScriptLength)
    (params.fixedOutputs.map GenerateChangeSdkOutput.lockingScriptLength ++ List.replicate changeOutputs params.changeLockingScriptLength)

end GenerateChangeSdkParams

structure ChangePlan where
  allocatedChangeInputs : List GenerateChangeSdkChangeInput
  changeOutputs : List GenerateChangeSdkOutput

namespace ChangePlan
variable (params : GenerateChangeSdkParams) (plan : ChangePlan)

def funding : Int := params.fixedFunding + (plan.allocatedChangeInputs.map GenerateChangeSdkChangeInput.satoshis).sum

def change : Int := (plan.changeOutputs.map GenerateChangeSdkOutput.satoshis).sum

def fee : Int := plan.funding params - params.spending - plan.change

def size (addedChangeInputs addedChangeOutputs : Nat) : Nat :=
  params.sizeWith (plan.allocatedChangeInputs.length + addedChangeInputs) (plan.changeOutputs.length + addedChangeOutputs)

def feeTarget (addedChangeInputs addedChangeOutputs : Nat) : Int := params.feeOfSize (plan.size params addedChangeInputs addedChangeOutputs)

def feeExcessWith (addedChangeInputs addedChangeOutputs : Nat) : Int :=
  plan.funding params - params.spending - plan.change - plan.feeTarget params addedChangeInputs addedChangeOutputs

abbrev feeExcess : Int := plan.feeExcessWith params 0 0

def netChangeCount : Int := plan.changeOutputs.length - plan.allocatedChangeInputs.length

def addOutputToBalanceNewInput : Bool :=
  params.hasTargetNetCount && !decide (params.maxOutputs ≤ plan.changeOutputs.length) && decide (plan.netChangeCount - 1 < params.targetCount)

def addChangeOutput (satoshis : Int) : ChangePlan :=
  { plan with changeOutputs := plan.changeOutputs ++ [⟨satoshis, params.changeLockingScriptLength⟩] }

end ChangePlan

section
variable (params : GenerateChangeSdkParams)

/-- The change outputs that are wanted; each round adds one, up to the most there may be. -/
def wantedChangeOutputs : Nat → ChangePlan → ChangePlan
  | 0, plan => plan
  | more + 1, plan =>
    if plan.changeOutputs.length < params.maxOutputs ∧
        ((params.hasTargetNetCount = true ∧ plan.netChangeCount < params.targetCount) ∨ (plan.changeOutputs = [] ∧ 0 < plan.feeExcess params)) then
      let satoshis := if plan.changeOutputs = [] then params.changeFirstSatoshis else params.changeInitialSatoshis
      wantedChangeOutputs more (plan.addChangeOutput params (max params.dustFloor satoshis))
    else plan

def releaseInputs : List GenerateChangeSdkChangeInput → ChangeM Unit
  | [] => return
  | input :: rest => do
    ChangeM.releaseChangeInput input.outputId
    releaseInputs rest

def releaseAllocatedChangeInputs (plan : ChangePlan) : ChangeM ChangePlan := do
  releaseInputs plan.allocatedChangeInputs.reverse
  return { plan with allocatedChangeInputs := [] }

def maybeAddChangeOutput (removingOutputs : Bool) (ao : Nat) (plan : ChangePlan) : ChangePlan :=
  if removingOutputs ∨ plan.feeExcess params ≤ 0 then plan
  else if ¬ ((ao = 1 ∨ plan.changeOutputs = []) ∧ plan.changeOutputs.length < params.maxOutputs) then plan
  else
    let cap := if plan.changeOutputs = [] then params.changeFirstSatoshis else params.changeInitialSatoshis
    let satoshis := min (plan.feeExcess params) (max params.dustFloor cap)
    if params.dustFloor ≤ satoshis then plan.addChangeOutput params satoshis else plan

def ChangePlan.exactSatoshis (plan : ChangePlan) : Option Int :=
  if params.hasTargetNetCount = false ∧ plan.changeOutputs = [] then some (-plan.feeExcessWith params 1 0) else none

def ChangePlan.targetSatoshis (plan : ChangePlan) (ao : Nat) : Int :=
  let changeBuffer := if plan.changeOutputs = [] ∧ ao = 0 then params.dustFloor + plan.feeTarget params 0 1 - plan.feeTarget params 0 0 else 0
  let balance := if ao = 1 then 2 * params.changeInitialSatoshis else 0
  balance + changeBuffer - plan.feeExcessWith params 1 ao

/-- The plan with one more input, unless there is none. -/
def attemptToFundTransaction (removingOutputs : Bool) (plan : ChangePlan) : ChangeM (Option ChangePlan) := do
  if 0 < plan.feeExcess params then return some plan
  else
    let ao := if plan.addOutputToBalanceNewInput params then 1 else 0
    match ← ChangeM.allocateChangeInput (plan.targetSatoshis params ao) (plan.exactSatoshis params) with
    | none => return none
    | some input =>
      return some (maybeAddChangeOutput params removingOutputs ao
        { plan with allocatedChangeInputs := plan.allocatedChangeInputs ++ [input] })

def fundingLoop (removingOutputs : Bool) : Nat → ChangePlan → ChangeM ChangePlan
  | 0, _ => .fail .unfinished
  | fuel + 1, plan => do
    if plan.feeExcess params < 0 then
      match ← attemptToFundTransaction params removingOutputs plan with
      | none => return plan
      | some funded => fundingLoop removingOutputs fuel funded
    else return plan

def dropUnfunded (inputs : List GenerateChangeSdkChangeInput) : List GenerateChangeSdkOutput → List GenerateChangeSdkOutput
  | [] => []
  | last :: rest =>
    if (ChangePlan.mk inputs (last :: rest).reverse).feeExcess params < 0 then dropUnfunded inputs rest else last :: rest

def dropChurn : List GenerateChangeSdkChangeInput → List GenerateChangeSdkOutput → List GenerateChangeSdkOutput
  | _, [] => []
  | inputs, last :: rest =>
    if 1 < inputs.length ∧ rest ≠ [] then
      match inputs.findIdx? fun input => input.satoshis ≤ last.satoshis with
      | none => last :: rest
      | some i => dropChurn (inputs.eraseIdx i) rest
    else last :: rest

def removeChurnPairs (inputs : List GenerateChangeSdkChangeInput) (outputs : List GenerateChangeSdkOutput) : List GenerateChangeSdkOutput :=
  (dropChurn inputs outputs.reverse).reverse

def starvationLoop (fuel : Nat) : Nat → Bool → ChangePlan → ChangeM ChangePlan
  | 0, _, _ => .fail .unfinished
  | rounds + 1, removingOutputs, plan => do
    let released ← releaseAllocatedChangeInputs plan
    let funded ← fundingLoop params removingOutputs fuel released
    if 0 ≤ funded.feeExcess params ∨ funded.changeOutputs = [] then return funded
    else
      let kept : ChangePlan :=
        { funded with changeOutputs := (dropUnfunded params funded.allocatedChangeInputs funded.changeOutputs.reverse).reverse }
      if kept.feeExcess params < 0 then return kept
      else
        starvationLoop fuel rounds true { kept with changeOutputs := removeChurnPairs kept.allocatedChangeInputs kept.changeOutputs }

def distributeExcessFees : Nat → Nat → List GenerateChangeSdkOutput → Int → List GenerateChangeSdkOutput × Int
  | 0, _, outputs, feeExcessNow => (outputs, feeExcessNow)
  | fuel + 1, draw, outputs, feeExcessNow =>
    if feeExcessNow ≤ 0 then (outputs, feeExcessNow)
    else
      match outputs with
      | [] => ([], feeExcessNow)
      | [only] => ([{ only with satoshis := only.satoshis + feeExcessNow }], 0)
      | first :: second :: rest =>
        if first.satoshis < params.changeInitialSatoshis then
          let sats := min feeExcessNow (params.changeInitialSatoshis - first.satoshis)
          distributeExcessFees fuel draw ({ first with satoshis := first.satoshis + sats } :: second :: rest) (feeExcessNow - sats)
        else
          let sats := max 1 (params.rand draw 2500 5000 * feeExcessNow / 10000)
          let index := params.rand (draw + 1) 0 (rest.length + 1)
          distributeExcessFees fuel (draw + 2)
            ((first :: second :: rest).modify index fun output => { output with satoshis := output.satoshis + sats }) (feeExcessNow - sats)

def largestIndex : List GenerateChangeSdkOutput → Nat
  | [] => 0
  | first :: rest =>
    (rest.zipIdx 1).foldl (fun best next => if best.1 < next.1.satoshis then (next.1.satoshis, next.2) else best) (first.satoshis, 0) |>.2

/-- Outputs below the dust floor go to the largest of the others, the last one first. -/
def removeDustOutputs (dustFloor : Int) : Nat → List GenerateChangeSdkOutput → List GenerateChangeSdkOutput
  | 0, outputs => outputs
  | i + 1, outputs =>
    match outputs[i]? with
    | none => removeDustOutputs dustFloor i outputs
    | some removed =>
      if removed.satoshis < dustFloor ∧ 1 < outputs.length then
        let others := outputs.eraseIdx i
        removeDustOutputs dustFloor i
          (others.modify (largestIndex others) fun output => { output with satoshis := output.satoshis + removed.satoshis })
      else removeDustOutputs dustFloor i outputs

def validateGenerateChangeSdkResult (r : GenerateChangeSdkResult) : Bool × String :=
  let plan : ChangePlan := ⟨r.allocatedChangeInputs, r.changeOutputs⟩
  let feePaid := plan.fee params
  let feeRequired := params.feeOfSize r.size
  let negative := if r.fee < 0 then "basic fee error " ++ toString r.fee ++ ";" else ""
  let paid := if feePaid ≠ r.fee then "exact fee error " ++ toString feePaid ++ " !== " ++ toString r.fee ++ ";" else ""
  let required := if feeRequired ≠ r.fee then "required fee error " ++ toString feeRequired ++ " !== " ++ toString r.fee ++ ";" else ""
  (0 ≤ r.fee ∧ feePaid = r.fee ∧ feeRequired = r.fee, negative ++ paid ++ required)

def finishChange (adjustment : Option (Nat × Int)) (plan : ChangePlan) : ChangeM GenerateChangeSdkResult :=
  let excess := plan.feeExcess params
  let spread := (distributeExcessFees params excess.toNat 0 plan.changeOutputs excess).1
  let kept : ChangePlan := { plan with changeOutputs := removeDustOutputs params.dustFloor spread.length spread }
  let r : GenerateChangeSdkResult :=
    { allocatedChangeInputs := kept.allocatedChangeInputs
      changeOutputs := kept.changeOutputs
      size := kept.size params 0 0
      fee := kept.fee params
      maxPossibleSatoshisAdjustment := adjustment }
  let (ok, log) := validateGenerateChangeSdkResult params r
  if ok then return r else ChangeM.throws (.internal ("generateChangeSdk error: " ++ log))

def settleChange (adjustment : Option (Nat × Int)) (plan : ChangePlan) : ChangeM GenerateChangeSdkResult :=
  if plan.feeExcess params < 0 then do
    let _ ← releaseAllocatedChangeInputs plan
    ChangeM.throws (.insufficientFunds (params.spending + plan.feeTarget params 0 0) (-plan.feeExcess params))
  else if plan.changeOutputs = [] ∧ 0 < plan.feeExcess params then do
    let released ← releaseAllocatedChangeInputs plan
    ChangeM.throws (.insufficientFunds (params.spending + released.feeTarget params 0 0) params.changeFirstSatoshis)
  else finishChange params adjustment plan

/-- The output for as much as possible is reduced to what can be funded. -/
def adjustMaxPossible (i : Nat) (plan : ChangePlan) : Except WalletError (GenerateChangeSdkParams × Int) :=
  match params.fixedOutputs[i]? with
  | none => .error (.internal "An internal error has occurred.")
  | some output =>
    if output.satoshis ≠ maxPossibleSatoshis then .error (.internal "An internal error has occurred.")
    else
      let satoshis := output.satoshis + plan.feeExcess params
      .ok ({ params with fixedOutputs := params.fixedOutputs.set i { output with satoshis } }, satoshis)

def generateChangeSdk (fuel : Nat) : ChangeM GenerateChangeSdkResult := do
  let maxPossible ← ChangeM.ofExcept (validateGenerateChangeSdkParams params)
  let wanted := wantedChangeOutputs params params.maxOutputs.toNat ⟨[], []⟩
  let plan ← starvationLoop params fuel fuel false wanted
  match maxPossible with
  | some i =>
    if plan.feeExcess params < 0 then
      let (adjusted, satoshis) ← ChangeM.ofExcept (adjustMaxPossible params i plan)
      settleChange adjusted (some (i, satoshis)) plan
    else settleChange params none plan
  | none => settleChange params none plan

end

end WalletToolbox

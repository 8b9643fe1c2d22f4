import WalletToolbox.Proofs.VerifiedActions
import WalletToolbox.Provider.ActionPlans
import Mathlib.Data.List.Perm.Subperm
import Mathlib.Data.List.Nodup

/-! The signed transaction is the planned one: its outputs and inputs are those storage has
planned, and it is as large as its fee was computed for. -/

namespace WalletToolbox
open Effects
open List (ext_getElem foldl_cons get_eq_getElem length_append length_map length_take length_zipIdx map_append map_cons map_map mem_iff_getElem? mem_map range replicate sum_cons)

def compactSizeWidth (n : Nat) : Nat := if n < 253 then 1 else if n < 65536 then 3 else if n < 4294967296 then 5 else 9

def TransactionInput.scriptLength (input : TransactionInput) : Nat := (input.unlockingScript.getD []).length

def TransactionInput.serializedSize (input : TransactionInput) : Nat := 36 + (compactSizeWidth input.scriptLength + input.scriptLength) + 4

def TransactionOutput.serializedSize (output : TransactionOutput) : Nat :=
  8 + (compactSizeWidth output.lockingScript.length + output.lockingScript.length)

namespace Transaction

def serializedSize (tx : Transaction) : Nat :=
  4 + (compactSizeWidth tx.inputs.length + (tx.inputs.map (·.serializedSize)).sum) +
    (compactSizeWidth tx.outputs.length + (tx.outputs.map (·.serializedSize)).sum) + 4

def withWalletScripts (tx : Transaction) (n : Nat) : Transaction :=
  { tx with inputs := tx.inputs.take n ++
      (tx.inputs.drop n).map fun input => { input with unlockingScript := some (replicate changeUnlockingScriptLength 0) } }

end Transaction

theorem compactSizeWidth_eq (n : Nat) : compactSizeWidth n = varUintSize n := by
  unfold compactSizeWidth varUintSize
  split <;> split <;> grind

theorem input_serializedSize (input : TransactionInput) : input.serializedSize = transactionInputSize input.scriptLength := by
  rw [TransactionInput.serializedSize, transactionInputSize, compactSizeWidth_eq]
  omega

theorem output_serializedSize (output : TransactionOutput) :
    output.serializedSize = transactionOutputSize output.lockingScript.length := by
  rw [TransactionOutput.serializedSize, transactionOutputSize, compactSizeWidth_eq]
  omega

theorem serializedSize_eq (tx : Transaction) :
    tx.serializedSize = transactionSize (tx.inputs.map (·.scriptLength)) (tx.outputs.map (·.lockingScript.length)) := by
  unfold Transaction.serializedSize transactionSize
  simp only [compactSizeWidth_eq, length_map, map_map, Function.comp_def, input_serializedSize, output_serializedSize]
  omega

theorem varUintSize_mono {m n} (le : m ≤ n) : varUintSize m ≤ varUintSize n := by
  unfold varUintSize
  grind

theorem transactionInputSize_mono (le : m ≤ n) : transactionInputSize m ≤ transactionInputSize n := by
  have shorter := varUintSize_mono le
  unfold transactionInputSize
  omega

theorem transactionInputSize_lt (lt : m < n) : transactionInputSize m < transactionInputSize n := by
  have shorter := varUintSize_mono lt.le
  unfold transactionInputSize
  omega

theorem inputSizes_le (le : List.Forall₂ (· ≤ ·) lengths planned) :
    (lengths.map transactionInputSize).sum ≤ (planned.map transactionInputSize).sum := by
  induction le with
  | nil => exact le_rfl
  | cons first _ ih =>
    have one := transactionInputSize_mono first
    simp only [map_cons, sum_cons]
    omega

theorem inputSizes_eq (le : List.Forall₂ (· ≤ ·) lengths planned)
    (same : (lengths.map transactionInputSize).sum = (planned.map transactionInputSize).sum) : lengths = planned := by
  induction le with
  | nil => rfl
  | @cons first bound rest bounds one others ih =>
    have below := inputSizes_le others
    have mono := transactionInputSize_mono one
    simp only [map_cons, sum_cons] at same
    have strict : ¬ first < bound := by
      intro lt
      have less := transactionInputSize_lt lt
      omega
    have equal : first = bound := by omega
    subst equal
    rw [ih (by omega)]

variable {sdk : Sdk}

theorem map_eq_of_forall₂
    (each : List.Forall₂ related first second) (same : ∀ a b, related a b → g b = f a) : second.map g = first.map f := by
  induction each with
  | nil => rfl
  | cons one _ ih => rw [map_cons, map_cons, same _ _ one, ih]

theorem outputAt_ok
    (found : outputAt outputs vout = .ok out) : out ∈ outputs ∧ out.vout = vout := by
  unfold outputAt at found
  split at found
  next here =>
    cases found
    exact ⟨List.mem_of_find?_eq_some here, by simpa using List.find?_some here⟩
  next => cases found

theorem outputsAt_ok
    (found : (range outputs.length).mapM (outputAt outputs) = .ok planned) :
    planned.Perm outputs ∧ ∀ vout (out : StorageCreateTransactionSdkOutput), planned[vout]? = some out → out.vout = vout := by
  have each := mapM_ok found
  have long : planned.length = outputs.length := by rw [← each.length_eq, List.length_range]
  have placed : ∀ vout out, planned[vout]? = some out → out ∈ outputs ∧ out.vout = vout := by
    intro vout out here
    obtain ⟨inside, rfl⟩ := List.getElem?_eq_some_iff.mp here
    have one := each.get (i := vout) (by rw [List.length_range]; omega) inside
    simp only [get_eq_getElem, List.getElem_range] at one
    exact outputAt_ok one
  have vouts : planned.map (·.vout) = range planned.length := by
    apply ext_getElem (by simp)
    intro vout inside _
    rw [List.getElem_map, List.getElem_range]
    exact (placed vout _ (List.getElem?_eq_getElem (by simpa using inside))).2
  have distinct := List.Nodup.of_map _ (vouts ▸ List.nodup_range)
  have within : planned ⊆ outputs := by
    intro out member
    obtain ⟨vout, here⟩ := mem_iff_getElem?.mp member
    exact (placed vout out here).1
  exact ⟨(List.subperm_of_subset distinct within).perm_of_length_le long.ge, fun vout out here => (placed vout out here).2⟩

def plannedScriptLength (out : StorageCreateTransactionSdkOutput) : Nat :=
  if isChange out then changeLockingScriptLength else out.lockingScript.length / 2

theorem asBsvSdkScript_length (parsed : asBsvSdkScript text = .ok script) :
    text.length = 2 * script.length := by
  unfold asBsvSdkScript at parsed
  split at parsed
  next decoded =>
    cases parsed
    exact Hex.decode_length decoded
  next => cases parsed

/-- The documentation of the template: a change script is that of a public key hash. -/
def Sdk.LocksChange (sdk : Sdk) : Prop :=
  ∀ derivationPrefix derivationSuffix script, sdk.lock derivationPrefix derivationSuffix = .ok script → script.length = changeLockingScriptLength

structure BuiltOutput (out : StorageCreateTransactionSdkOutput) (built : TransactionOutput) : Prop where
  satoshis : built.satoshis = out.satoshis
  script : isChange out = false → asBsvSdkScript out.lockingScript = .ok built.lockingScript

theorem buildOutput_ok
    (builds : buildOutput sdk dctr out = .ok built) : BuiltOutput out built := by
  obtain ⟨script, made, same⟩ := bind_eq_ok.mp (show (outputScript sdk dctr out >>= _) = .ok built from builds)
  cases same
  refine ⟨rfl, fun given => ?_⟩
  rwa [outputScript, given] at made

theorem buildOutput_length (locks : sdk.LocksChange) (builds : buildOutput sdk dctr out = .ok built) :
    built.lockingScript.length = plannedScriptLength out := by
  obtain ⟨script, made, same⟩ := bind_eq_ok.mp (show (outputScript sdk dctr out >>= _) = .ok built from builds)
  cases same
  unfold outputScript at made
  unfold plannedScriptLength
  split at made
  next change =>
    obtain ⟨_, _, made⟩ := bind_eq_ok.mp made
    obtain ⟨_, _, made⟩ := bind_eq_ok.mp made
    rw [if_pos change]
    exact locks _ _ _ made
  next given =>
    rw [if_neg given, asBsvSdkScript_length made, Nat.mul_div_cancel_left _ two_pos]

structure BuiltOutputs (planned : List StorageCreateTransactionSdkOutput) (outputs : List TransactionOutput) : Prop where
  length : outputs.length = planned.length
  each : ∀ out ∈ planned, ∃ built, outputs[out.vout]? = some built ∧ BuiltOutput out built

theorem buildOutputs_ok
    (builds : buildOutputs sdk dctr = .ok outputs) (planned : dctr.outputs ≠ []) : BuiltOutputs dctr.outputs outputs := by
  obtain ⟨ordered, found, builds⟩ := bind_eq_ok.mp builds
  obtain ⟨made, all, same⟩ := bind_eq_ok.mp builds
  rw [if_neg planned] at same
  cases same
  obtain ⟨perm, placed⟩ := outputsAt_ok found
  have each := mapM_ok all
  refine ⟨by rw [← each.length_eq, perm.length_eq], fun out member => ?_⟩
  obtain ⟨vout, here⟩ := mem_iff_getElem?.mp (perm.mem_iff.mpr member)
  obtain ⟨inside, rfl⟩ := List.getElem?_eq_some_iff.mp here
  have builtAt := each.length_eq ▸ inside
  refine ⟨outputs[vout], ?_, buildOutput_ok (each.get inside builtAt)⟩
  rw [placed vout _ here]
  exact List.getElem?_eq_getElem builtAt

theorem buildOutputs_sizes (locks : sdk.LocksChange)
    (builds : buildOutputs sdk dctr = .ok outputs) (planned : dctr.outputs ≠ []) :
    (outputs.map (·.lockingScript.length)).Perm (dctr.outputs.map plannedScriptLength) := by
  obtain ⟨ordered, found, builds⟩ := bind_eq_ok.mp builds
  obtain ⟨made, all, same⟩ := bind_eq_ok.mp builds
  rw [if_neg planned] at same
  cases same
  have lengths := map_eq_of_forall₂ (mapM_ok all) fun out built builds => buildOutput_length locks builds
  rw [lengths]
  exact (outputsAt_ok found).1.map _

def NewOutput.scriptLength (output : NewOutput) : Nat :=
  if output.providedBy = .storage ∧ output.purpose = "change" then changeLockingScriptLength
  else (output.lockingScript.getD []).length

theorem persistNewOutput_length
    (persisted : persistNewOutput output = .ok out) : plannedScriptLength out = output.scriptLength := by
  obtain ⟨satoshis, _, same⟩ := bind_eq_ok.mp persisted
  cases same
  have texts : ((output.lockingScript.map Hex.encode).getD "").length / 2 = (output.lockingScript.getD []).length := by
    cases output.lockingScript with
    | none => rfl
    | some script =>
      rw [Option.map_some, Option.getD_some, Option.getD_some, Hex.encode_length, Nat.mul_div_cancel_left _ two_pos]
  unfold plannedScriptLength isChange NewOutput.scriptLength
  by_cases change : output.providedBy = .storage ∧ output.purpose = "change"
  · rw [if_pos change, if_pos]
    simp [change.1, change.2]
  · rw [if_neg change, if_neg, texts]
    by_cases empty : output.purpose = "" <;> simp_all

theorem newFixedOutput_length (made : newFixedOutput xo = .ok output)
    (given : xo.providedBy ≠ .storage ∨ xo.purpose = some "service-charge") :
    output.scriptLength = xo.lockingScript.length / 2 := by
  obtain ⟨script, parsed, same⟩ := bind_eq_ok.mp made
  have long : xo.lockingScript.length / 2 = script.length := by
    rw [asBsvSdkScript_length parsed, Nat.mul_div_cancel_left _ two_pos]
  rw [long]
  unfold NewOutput.scriptLength
  split at same
  next =>
    cases same
    exact if_neg fun change => absurd change.2 (by simp)
  next plain =>
    cases same
    exact if_neg fun change => (given.resolve_right plain) change.1

theorem newChangeOutput_length (vout : Nat) (change : Nat × String) :
    (newChangeOutput vout change).scriptLength = changeLockingScriptLength := if_pos ⟨rfl, rfl⟩

theorem reassignVout_length
    (reassigned : reassignVout newVouts output vout = .ok moved) : moved.scriptLength = output.scriptLength := by
  unfold reassignVout at reassigned
  split at reassigned
  next => cases reassigned
  next =>
    cases reassigned
    rfl

theorem randomizeOutputVouts_lengths
    (randomized : randomizeOutputVouts random outputs = .ok shuffled) :
    shuffled.map NewOutput.scriptLength = outputs.map NewOutput.scriptLength := by
  have kept : shuffled.map NewOutput.scriptLength = outputs.zipIdx.map fun placed => placed.1.scriptLength := by
    refine map_eq_of_forall₂ (mapM_ok randomized) fun placed moved reassigned => ?_
    exact reassignVout_length reassigned
  have unplaced : outputs.zipIdx.map (fun placed => placed.1.scriptLength) = (outputs.zipIdx.map Prod.fst).map NewOutput.scriptLength := by
    rw [map_map]
    rfl
  rw [kept, unplaced, List.zipIdx_map_fst]

def Asked (xo : XValidCreateActionOutput) : Prop := xo.providedBy ≠ .storage ∨ xo.purpose = some "service-charge"

theorem createNewOutputs_lengths {storage : ActionStorage}
    (created : createNewOutputs storage vargs xoutputs funding = .ok outputs) (asked : ∀ xo ∈ xoutputs, Asked xo) :
    outputs.map plannedScriptLength = xoutputs.map (·.lockingScript.length / 2) ++
      replicate funding.changeOutputs.length changeLockingScriptLength := by
  obtain ⟨fixed, made, created⟩ := bind_eq_ok.mp created
  obtain ⟨placed, places, persisted⟩ := bind_eq_ok.mp created
  have kept : placed.map NewOutput.scriptLength = (fixed ++ funding.changeOutputs.zipIdx.map fun change =>
      newChangeOutput (xoutputs.length + change.2) change.1).map NewOutput.scriptLength := by
    unfold placeOutputs at places
    split at places
    next => exact randomizeOutputVouts_lengths places
    next =>
      cases places
      rfl
  have given : fixed.map NewOutput.scriptLength = xoutputs.map (·.lockingScript.length / 2) := by
    have each := (List.forall₂_and_left _ _).mpr ⟨asked, mapM_ok made⟩
    exact map_eq_of_forall₂ each fun xo output both => newFixedOutput_length both.2 both.1
  have change : (funding.changeOutputs.zipIdx.map fun change => newChangeOutput (xoutputs.length + change.2) change.1).map NewOutput.scriptLength =
      replicate funding.changeOutputs.length changeLockingScriptLength := by
    rw [map_map, List.eq_replicate_iff]
    constructor
    · rw [length_map, length_zipIdx]
    · intro length member
      obtain ⟨_, _, rfl⟩ := mem_map.mp member
      exact newChangeOutput_length _ _
  rw [map_eq_of_forall₂ (mapM_ok persisted) fun output out one => persistNewOutput_length one, kept, map_append, given, change]

theorem validateRequiredOutputs_asked (storage) (vargs) :
    ∀ xo ∈ validateRequiredOutputs storage vargs, Asked xo := by
  have plain : ∀ xo ∈ vargs.outputs.zipIdx.map fun placed =>
      ({ placed.1 with vout := placed.2, providedBy := .you, purpose := none } : XValidCreateActionOutput), Asked xo := by
    intro xo member
    obtain ⟨_, _, rfl⟩ := mem_map.mp member
    exact .inl (by simp)
  unfold validateRequiredOutputs
  cases storage.commission with
  | none => exact plain
  | some charge =>
    intro xo member
    rcases List.mem_append.mp member with asked | charged
    · exact plain xo asked
    · obtain rfl := List.mem_singleton.mp charged
      exact .inr rfl

theorem adjustOutputs_lengths (xoutputs) (funding) :
    (adjustOutputs xoutputs funding).map (·.lockingScript.length / 2) = xoutputs.map (·.lockingScript.length / 2) := by
  unfold adjustOutputs
  split
  next => rfl
  next index satoshis _ =>
    apply ext_getElem
    · simp
    · intro i _ _
      rw [List.getElem_map, List.getElem_map, List.getElem_modify]
      split <;> rfl

theorem adjustOutputs_asked (asked : ∀ xo ∈ xoutputs, Asked xo) (funding) :
    ∀ xo ∈ adjustOutputs xoutputs funding, Asked xo := by
  unfold adjustOutputs
  split
  next => exact asked
  next index satoshis _ =>
    intro xo member
    obtain ⟨i, here⟩ := mem_iff_getElem?.mp member
    obtain ⟨inside, rfl⟩ := List.getElem?_eq_some_iff.mp here
    have before : i < xoutputs.length := by simpa using inside
    rw [List.getElem_modify]
    split
    · exact asked xoutputs[i] (List.getElem_mem before)
    · exact asked xoutputs[i] (List.getElem_mem before)

theorem mapM_zipIdx_ok {ε α β : Type} (each : α → Nat → Except ε β) {values : List α} {start results}
    (mapped : (values.zipIdx start).mapM (fun (value, index) => each value index) = .ok results) :
    results.length = values.length ∧
      ∀ index value result, values[index]? = some value → results[index]? = some result → each value (start + index) = .ok result := by
  have related := mapM_ok mapped
  refine ⟨by rw [← related.length_eq, length_zipIdx], fun index value result here there => ?_⟩
  obtain ⟨inside, rfl⟩ := List.getElem?_eq_some_iff.mp here
  obtain ⟨built, rfl⟩ := List.getElem?_eq_some_iff.mp there
  have one := related.get (i := index) (by rw [length_zipIdx]; exact inside) built
  simpa only [get_eq_getElem, List.getElem_zipIdx] using one

def XValidCreateActionInput.Known (x : XValidCreateActionInput) : Prop :=
  ∀ output, x.output = some output → output.txid = some x.outpoint.txid ∧ output.vout = x.outpoint.vout

theorem resolveInputScript_ok {storage}
    (resolved : resolveInputScript storage input vin = .ok x) :
    x.toValidCreateActionInput = input ∧ x.Known := by
  unfold resolveInputScript at resolved
  split at resolved
  next output found =>
    unfold knownInput at resolved
    split at resolved
    next => cases resolved
    next =>
      split at resolved
      next => cases resolved
      next =>
        obtain ⟨_, _, same⟩ := bind_eq_ok.mp resolved
        cases same
        refine ⟨rfl, fun other same => ?_⟩
        cases same
        exact storage.findOutput_found input.outpoint output found
  next =>
    obtain ⟨_, _, resolved⟩ := bind_eq_ok.mp resolved
    obtain ⟨_, _, same⟩ := bind_eq_ok.mp resolved
    cases same
    refine ⟨rfl, fun output missing => ?_⟩
    cases missing

structure PlannedInput (vin : Nat) (planned : StorageCreateTransactionSdkInput) : Prop where
  vin : planned.vin = vin
  script : ∃ bytes, planned.sourceLockingScript = Hex.encode bytes

theorem buildSdkInputFromOutput_ok {storage} (built : buildSdkInputFromOutput storage vargs vin length output = .ok planned) :
    PlannedInput vin planned ∧ planned.sourceTxid = output.txid.getD "" ∧ planned.sourceVout = output.vout := by
  obtain ⟨text, read, same⟩ := bind_eq_ok.mp built
  cases same
  refine ⟨⟨rfl, ?_⟩, rfl, rfl⟩
  unfold rowScript at read
  split at read
  next => cases read
  next script _ =>
    cases read
    exact ⟨script, rfl⟩

theorem sdkInput_ok {storage} (built : sdkInput storage vargs vin x = .ok planned)
    (known : x.Known) : PlannedInput vin planned ∧ planned.sourceTxid = x.outpoint.txid ∧ planned.sourceVout = x.outpoint.vout := by
  unfold sdkInput at built
  split at built
  next output found =>
    obtain ⟨shape, txid, vout⟩ := buildSdkInputFromOutput_ok built
    obtain ⟨here, there⟩ := known output found
    exact ⟨shape, by rw [txid, here]; rfl, by rw [vout, there]⟩
  next =>
    cases built
    exact ⟨⟨rfl, x.lockingScript, rfl⟩, rfl, rfl⟩

structure PlannedInputs (asked : List ValidCreateActionInput) (allocated : Nat) (inputs : List StorageCreateTransactionSdkInput) : Prop where
  length : inputs.length = asked.length + allocated
  each : ∀ vin planned, inputs[vin]? = some planned → PlannedInput vin planned
  outpoint : ∀ (vin : Nat) (planned : StorageCreateTransactionSdkInput) (input : ValidCreateActionInput), inputs[vin]? = some planned → asked[vin]? = some input →
    planned.sourceTxid = input.outpoint.txid ∧ planned.sourceVout = input.outpoint.vout

theorem validateRequiredInputs_ok {storage : ActionStorage} {vargs xinputs}
    (validated : validateRequiredInputs storage vargs = .ok xinputs) :
    xinputs.map (·.toValidCreateActionInput) = vargs.inputs ∧ ∀ x ∈ xinputs, x.Known := by
  obtain ⟨long, each⟩ := mapM_zipIdx_ok (resolveInputScript storage) validated
  have resolved : ∀ index input (x : XValidCreateActionInput), vargs.inputs[index]? = some input → xinputs[index]? = some x →
      x.toValidCreateActionInput = input ∧ x.Known :=
    fun index input x here there => resolveInputScript_ok (each index input x here there)
  constructor
  · apply ext_getElem (by rw [length_map, long])
    intro index inside before
    rw [List.getElem_map]
    exact (resolved index _ _ (List.getElem?_eq_getElem before) (List.getElem?_eq_getElem (by simpa using inside))).1
  · intro x member
    obtain ⟨index, there⟩ := mem_iff_getElem?.mp member
    have inside := (List.getElem?_eq_some_iff.mp there).1
    exact (resolved index _ x (List.getElem?_eq_getElem (long ▸ inside)) there).2

theorem createNewInputs_ok {storage : ActionStorage} {vargs xinputs allocated inputs}
    (created : createNewInputs storage vargs xinputs allocated = .ok inputs)
    (known : ∀ x ∈ xinputs, x.Known) : PlannedInputs (xinputs.map (·.toValidCreateActionInput)) allocated.length inputs := by
  obtain ⟨first, asks, created⟩ := bind_eq_ok.mp created
  obtain ⟨last, allocates, same⟩ := bind_eq_ok.mp created
  cases same
  obtain ⟨firstLong, eachFirst⟩ := mapM_zipIdx_ok (fun i vin => sdkInput storage vargs vin i) asks
  obtain ⟨lastLong, eachLast⟩ := mapM_zipIdx_ok
    (fun output vin => buildSdkInputFromOutput storage vargs vin changeUnlockingScriptLength output) allocates
  have asked : ∀ vin (planned : StorageCreateTransactionSdkInput), first[vin]? = some planned → ∃ x, xinputs[vin]? = some x ∧ PlannedInput vin planned ∧
      planned.sourceTxid = x.outpoint.txid ∧ planned.sourceVout = x.outpoint.vout := by
    intro vin planned there
    have inside := (List.getElem?_eq_some_iff.mp there).1
    have here := List.getElem?_eq_getElem (firstLong ▸ inside)
    have built := eachFirst vin _ planned here there
    rw [Nat.zero_add] at built
    exact ⟨_, here, sdkInput_ok built (known _ (List.getElem_mem _))⟩
  refine ⟨by rw [length_append, length_map, firstLong, lastLong], fun vin planned there => ?_, fun vin planned input there here => ?_⟩
  · by_cases inside : vin < first.length
    · rw [List.getElem?_append_left inside] at there
      obtain ⟨_, _, shape, _⟩ := asked vin planned there
      exact shape
    · have beyond := Nat.le_of_not_lt inside
      rw [List.getElem?_append_right beyond] at there
      have within := (List.getElem?_eq_some_iff.mp there).1
      have built := eachLast _ _ planned (List.getElem?_eq_getElem (lastLong ▸ within)) there
      have shape := (buildSdkInputFromOutput_ok built).1
      rwa [← firstLong, Nat.add_sub_cancel' beyond] at shape
  · have inside : vin < first.length := by
      have before := (List.getElem?_eq_some_iff.mp here).1
      rw [length_map] at before
      omega
    rw [List.getElem?_append_left inside] at there
    obtain ⟨x, found, _, spends⟩ := asked vin planned there
    rw [List.getElem?_map, found] at here
    cases here
    exact spends

structure BuiltInput (asked : List ValidCreateActionInput) (planned : StorageCreateTransactionSdkInput) (input : TransactionInput) : Prop where
  caller : ∀ given : ValidCreateActionInput, asked[planned.vin]? = some given → input.sourceTXID = given.outpoint.txid ∧
    input.sourceOutputIndex = given.outpoint.vout ∧
    ∃ script, asBsvSdkScript (given.unlockingScript.getD "") = .ok script ∧ input.unlockingScript = some script
  wallet : asked[planned.vin]? = none → input.sourceTXID = planned.sourceTxid ∧ input.sourceOutputIndex = planned.sourceVout
  template : input.unlockingScriptTemplate = none

theorem verifyTruthy_again (truthy : verifyTruthy text = .ok value) :
    verifyTruthy (some value) = .ok value := by
  unfold verifyTruthy at truthy
  split at truthy
  next => cases truthy
  next => cases truthy
  next other _ =>
    cases truthy
    unfold verifyTruthy
    split <;> simp_all

theorem pendingInput_ok
    (pending : pendingInput vin planned = .ok pdi) (script : ∃ bytes, planned.sourceLockingScript = Hex.encode bytes) :
    pdi.vin = vin ∧ ∃ template, unlockTemplate pdi = .ok template := by
  unfold pendingInput at pending
  split at pending
  next => cases pending
  next =>
    obtain ⟨derivationPrefix, first, pending⟩ := bind_eq_ok.mp pending
    obtain ⟨derivationSuffix, second, same⟩ := bind_eq_ok.mp pending
    cases same
    obtain ⟨bytes, encoded⟩ := script
    have parsed : asBsvSdkScript planned.sourceLockingScript = .ok bytes := by
      rw [encoded, asBsvSdkScript, Hex.decode_encode]
    refine ⟨rfl, ⟨derivationPrefix, derivationSuffix, planned.senderIdentityKey, planned.sourceSatoshis, bytes⟩, ?_⟩
    unfold unlockTemplate
    rw [verifyTruthy_again first, verifyTruthy_again second, parsed]
    rfl

theorem addInput_ok (added : addInput sdk args inputBeef built planned = .ok last)
    (script : ∃ bytes, planned.sourceLockingScript = Hex.encode bytes) :
    ∃ input, last.inputs = built.inputs ++ [input] ∧ BuiltInput args.inputs planned input ∧
      ∀ pdi ∈ last.pdi, pdi ∈ built.pdi ∨
        (args.inputs.length ≤ planned.vin ∧ pdi.vin = built.inputs.length ∧ ∃ template, unlockTemplate pdi = .ok template) := by
  unfold addInput at added
  split at added
  next given here =>
    obtain ⟨input, made, same⟩ := bind_eq_ok.mp added
    cases same
    obtain ⟨unlocking, parsed, made⟩ := bind_eq_ok.mp made
    cases made
    refine ⟨_, rfl, ⟨fun other there => ?_, fun missing => ?_, rfl⟩, fun pdi member => .inl member⟩
    · cases here.symm.trans there
      exact ⟨rfl, rfl, unlocking, parsed, rfl⟩
    · cases here.symm.trans missing
  next here =>
    obtain ⟨pending, waits, added⟩ := bind_eq_ok.mp added
    obtain ⟨input, made, added⟩ := bind_eq_ok.mp added
    obtain ⟨_, _, same⟩ := bind_eq_ok.mp added
    cases same
    obtain ⟨source, _, made⟩ := bind_eq_ok.mp made
    cases made
    refine ⟨_, rfl, ⟨fun other there => ?_, fun _ => ⟨rfl, rfl⟩, rfl⟩, fun pdi member => ?_⟩
    · cases here.symm.trans there
    · rcases List.mem_append.mp member with earlier | now
      · exact .inl earlier
      · obtain rfl := List.mem_singleton.mp now
        exact .inr ⟨List.getElem?_eq_none_iff.mp here, pendingInput_ok waits script⟩

structure Templated (asked inputs : Nat) (pdi : PendingStorageInput) : Prop where
  wallet : asked ≤ pdi.vin
  inside : pdi.vin < inputs
  template : ∃ template, unlockTemplate pdi = .ok template

theorem addInputs_ok (added : inputs.foldlM (addInput sdk args inputBeef) built = .ok last)
    (each : ∀ index planned, inputs[index]? = some planned → PlannedInput (built.inputs.length + index) planned) :
    ∃ more, last.inputs = built.inputs ++ more ∧ List.Forall₂ (BuiltInput args.inputs) inputs more ∧
      ∀ pdi ∈ last.pdi, pdi ∈ built.pdi ∨ Templated args.inputs.length last.inputs.length pdi := by
  induction inputs generalizing built with
  | nil =>
    cases added
    exact ⟨[], (List.append_nil _).symm, .nil, fun pdi member => .inl member⟩
  | cons planned rest ih =>
    rw [List.foldlM_cons] at added
    obtain ⟨middle, one, added⟩ := bind_eq_ok.mp added
    have here := each 0 planned rfl
    obtain ⟨input, first, shape, pending⟩ := addInput_ok one here.script
    have later : ∀ index other, rest[index]? = some other → PlannedInput (middle.inputs.length + index) other := by
      intro index other there
      rw [first, length_append, List.length_singleton, Nat.add_assoc, Nat.add_comm 1]
      exact each (index + 1) other there
    obtain ⟨more, others, shapes, waiting⟩ := ih added later
    refine ⟨input :: more, by rw [others, first, List.append_assoc]; rfl, .cons shape shapes, fun pdi member => ?_⟩
    rcases waiting pdi member with earlier | later
    · rcases pending pdi earlier with before | ⟨beyond, place, template⟩
      · exact .inl before
      · have vin := here.vin
        refine .inr ⟨by omega, ?_, template⟩
        rw [place, others, first, length_append, length_append, List.length_singleton]
        omega
    · exact .inr later

theorem sortInputs_planned
    (planned : PlannedInputs asked allocated inputs) : sortInputs inputs = inputs := by
  apply List.mergeSort_of_pairwise
  rw [List.pairwise_iff_getElem]
  intro first second inside last before
  have here := (planned.each first _ (List.getElem?_eq_getElem inside)).vin
  have there := (planned.each second _ (List.getElem?_eq_getElem last)).vin
  rw [here, there]
  exact decide_eq_true before.le

def plannedLength (given : ValidCreateActionInput) : Nat := (given.unlockingScript.map String.length).getD given.unlockingScriptLength

def givenLength (given : ValidCreateActionInput) : Nat :=
  (given.unlockingScript.map fun script => script.length / 2).getD given.unlockingScriptLength

theorem transactionSize_perm (inputs) (perm : outputs.Perm others) :
    transactionSize inputs outputs = transactionSize inputs others := by
  have sums := (perm.map transactionOutputSize).sum_nat
  unfold transactionSize
  rw [perm.length_eq, sums]

theorem PlannedInputs.of_stripped
    (planned : PlannedInputs (removeUnlockScripts vargs).inputs allocated inputs) : PlannedInputs vargs.inputs allocated inputs := by
  have long : (removeUnlockScripts vargs).inputs.length = vargs.inputs.length := length_map ..
  refine ⟨long ▸ planned.length, planned.each, fun vin one input there here => ?_⟩
  have stripped : (removeUnlockScripts vargs).inputs[vin]? = some { input with
      unlockingScript := none, unlockingScriptLength := plannedLength input } := by
    rw [removeUnlockScripts, List.getElem?_map, here]
    rfl
  have spends := planned.outpoint vin one _ there stripped
  exact spends

theorem planAction_ok {storage}
    (plans : planAction storage (removeUnlockScripts vargs) funding = .ok plan) :
    PlannedInputs vargs.inputs funding.allocatedChange.length plan.result.inputs ∧
      plan.size = transactionSize
        (vargs.inputs.map plannedLength ++ replicate funding.allocatedChange.length changeUnlockingScriptLength)
        (plan.result.outputs.map plannedScriptLength) := by
  obtain ⟨xinputs, validated, plans⟩ := bind_eq_ok.mp plans
  obtain ⟨outputs, places, plans⟩ := bind_eq_ok.mp plans
  obtain ⟨inputs, creates, same⟩ := bind_eq_ok.mp plans
  cases same
  obtain ⟨asked, known⟩ := validateRequiredInputs_ok validated
  have created := createNewInputs_ok creates known
  rw [asked] at created
  refine ⟨created.of_stripped, ?_⟩
  have given : xinputs.map (·.unlockingScriptLength) = vargs.inputs.map plannedLength := by
    have stripped := congrArg (List.map (·.unlockingScriptLength)) asked
    rw [map_map] at stripped
    rw [show xinputs.map (·.unlockingScriptLength) = _ from stripped]
    exact map_map
  rw [fundedSize, given, createNewOutputs_lengths places (adjustOutputs_asked (validateRequiredOutputs_asked _ _) funding),
    adjustOutputs_lengths]

structure Built (plan : ActionPlan) (asked : List ValidCreateActionInput) (allocated : Nat) (prior : PendingSignAction) : Prop where
  args : prior.args.inputs = asked
  planned : PlannedInputs asked allocated plan.result.inputs
  inputs : List.Forall₂ (BuiltInput asked) plan.result.inputs prior.tx.inputs
  templates : ∀ pdi ∈ prior.pdi, Templated asked.length prior.tx.inputs.length pdi
  none_planned : plan.result.outputs = [] → prior.tx.outputs = [dummyOutput]
  outputs : plan.result.outputs ≠ [] → BuiltOutputs plan.result.outputs prior.tx.outputs
  size : plan.result.outputs ≠ [] → plan.size = transactionSize
    (asked.map plannedLength ++ replicate allocated changeUnlockingScriptLength) (prior.tx.outputs.map (·.lockingScript.length))

theorem buildSignableTransaction_ok {storage} (locks : sdk.LocksChange) (plans : planAction storage (removeUnlockScripts vargs) funding = .ok plan)
    (builds : buildSignableTransaction sdk plan.result vargs = .ok prior) :
    Built plan vargs.inputs funding.allocatedChange.length prior := by
  obtain ⟨planned, sized⟩ := planAction_ok plans
  obtain ⟨inputBeef, _, builds⟩ := bind_eq_ok.mp builds
  obtain ⟨outputs, made, builds⟩ := bind_eq_ok.mp builds
  obtain ⟨built, added, same⟩ := bind_eq_ok.mp builds
  cases same
  rw [sortInputs_planned planned] at added
  have each : ∀ index one, plan.result.inputs[index]? = some one → PlannedInput (0 + index) one := by
    intro index one there
    rw [Nat.zero_add]
    exact planned.each index one there
  obtain ⟨more, all, shapes, waiting⟩ := addInputs_ok added each
  rw [List.nil_append] at all
  refine ⟨rfl, planned, all ▸ shapes, fun pdi member => (waiting pdi member).resolve_left nofun, fun none => ?_,
    fun some => buildOutputs_ok made some, fun some => ?_⟩
  · obtain ⟨_, _, made⟩ := bind_eq_ok.mp made
    obtain ⟨_, _, same⟩ := bind_eq_ok.mp made
    rw [if_pos none] at same
    cases same
    rfl
  · rw [sized, transactionSize_perm _ (buildOutputs_sizes locks made some)]

def Transaction.scriptLengths (tx : Transaction) (n : Nat) : List Nat := (tx.inputs.take n).map (·.scriptLength)

structure AsPlanned (plan : ActionPlan) (asked : List ValidCreateActionInput) (tx : Transaction) : Prop where
  outputs : BuiltOutputs plan.result.outputs tx.outputs
  inputs_length : tx.inputs.length = plan.result.inputs.length
  inputs : ∀ planned ∈ plan.result.inputs, ∃ input, tx.inputs[planned.vin]? = some input ∧
    input.sourceTXID = planned.sourceTxid ∧ input.sourceOutputIndex = planned.sourceVout
  size_le : (tx.withWalletScripts asked.length).serializedSize ≤ plan.size
  size_eq : tx.scriptLengths asked.length = asked.map givenLength → (tx.withWalletScripts asked.length).serializedSize = plan.size

def SignedAsPlanned (sdk : Sdk) (plan : ActionPlan) (asked : List ValidCreateActionInput) (prior : PendingSignAction) : Prop :=
  ∀ spends after, insertScripts spends prior = (.ok (), after) → AsPlanned plan asked after.tx ∧
    ∀ signed, signInputs sdk after = (.ok (), signed) → AsPlanned plan asked signed.tx

theorem withWalletScripts_lengths (tx : Transaction) (n : Nat) :
    (tx.withWalletScripts n).inputs.map (·.scriptLength) =
      tx.scriptLengths n ++ replicate (tx.inputs.length - n) changeUnlockingScriptLength := by
  have signed : ((tx.inputs.drop n).map fun input : TransactionInput =>
      { input with unlockingScript := some (replicate changeUnlockingScriptLength 0) }).map (·.scriptLength) =
        replicate (tx.inputs.length - n) changeUnlockingScriptLength := by
    rw [map_map, List.eq_replicate_iff]
    constructor
    · rw [length_map, List.length_drop]
    · intro length member
      obtain ⟨_, _, rfl⟩ := mem_map.mp member
      exact List.length_replicate
  rw [Transaction.withWalletScripts, map_append, signed]
  rfl

structure Follows (built tx : Transaction) : Prop where
  outputs : tx.outputs = built.outputs
  outpoints : tx.inputs.map (fun input => (input.sourceTXID, input.sourceOutputIndex)) =
    built.inputs.map fun input => (input.sourceTXID, input.sourceOutputIndex)

theorem Follows.length (follows : Follows built tx) : tx.inputs.length = built.inputs.length := by
  have long := congrArg List.length follows.outpoints
  rwa [length_map, length_map] at long

namespace Built

variable {plan : ActionPlan} {asked : List ValidCreateActionInput} {allocated : Nat} {prior : PendingSignAction} {tx : Transaction}

variable (built : Built plan asked allocated prior)
include built

theorem inputs_length (follows : Follows prior.tx tx) :
    tx.inputs.length = asked.length + allocated := by
  rw [follows.length, ← built.inputs.length_eq, built.planned.length]

theorem size_balance (some : plan.result.outputs ≠ []) (follows : Follows prior.tx tx) :
    (tx.withWalletScripts asked.length).serializedSize + ((asked.map plannedLength).map transactionInputSize).sum =
      plan.size + ((tx.scriptLengths asked.length).map transactionInputSize).sum := by
  have long := built.inputs_length follows
  have left : tx.inputs.length - asked.length = allocated := by omega
  have callers : (tx.scriptLengths asked.length).length = asked.length := by
    rw [Transaction.scriptLengths, length_map, length_take]
    omega
  have outputs : (tx.withWalletScripts asked.length).outputs = prior.tx.outputs := follows.outputs
  rw [serializedSize_eq, withWalletScripts_lengths, outputs, left, built.size some]
  unfold transactionSize
  simp only [length_append, callers, length_map, map_append, List.sum_append]
  omega

theorem planned_input (follows : Follows prior.tx tx) :
    ∀ planned ∈ plan.result.inputs, ∃ input, tx.inputs[planned.vin]? = some input ∧
      input.sourceTXID = planned.sourceTxid ∧ input.sourceOutputIndex = planned.sourceVout := by
  intro planned member
  obtain ⟨vin, there⟩ := mem_iff_getElem?.mp member
  obtain ⟨inside, same⟩ := List.getElem?_eq_some_iff.mp there
  have first := built.inputs.length_eq ▸ inside
  have shape := built.inputs.get inside first
  have place := (built.planned.each vin planned there).vin
  rw [get_eq_getElem, get_eq_getElem, same] at shape
  have inTx := follows.length ▸ first
  have outpoint := congrArg (fun pairs => pairs[vin]?) follows.outpoints
  simp only [List.getElem?_map, List.getElem?_eq_getElem inTx, List.getElem?_eq_getElem first, Option.map_some, Option.some.injEq,
    Prod.mk.injEq] at outpoint
  refine ⟨tx.inputs[vin], ?_, ?_⟩
  · rw [place]
    exact List.getElem?_eq_getElem inTx
  rw [outpoint.1, outpoint.2]
  cases here : asked[planned.vin]? with
  | none => exact shape.wallet here
  | some given =>
    obtain ⟨txid, vout, _⟩ := shape.caller given here
    rw [place] at here
    obtain ⟨source, index⟩ := built.planned.outpoint vin planned given there here
    exact ⟨txid.trans source.symm, vout.trans index.symm⟩

theorem asPlanned (some : plan.result.outputs ≠ []) (follows : Follows prior.tx tx)
    (le : List.Forall₂ (· ≤ ·) (tx.scriptLengths asked.length) (asked.map plannedLength))
    (given : asked.map givenLength = asked.map plannedLength) : AsPlanned plan asked tx := by
  have balance := built.size_balance some follows
  have below := inputSizes_le le
  refine ⟨?_, ?_, built.planned_input follows, by omega, fun same => ?_⟩
  · rw [follows.outputs]
    exact built.outputs some
  · rw [built.inputs_length follows, built.planned.length]
  · rw [same, given] at balance
    omega

end Built

section
variable {χ α β : Type} {place : χ → Nat} {put : χ → α → α}

theorem foldl_modify_map (kept : ∀ x a, field (put x a) = field a) (values : List χ) (list : List α) :
    (values.foldl (fun list x => list.modify (place x) (put x)) list).map field = list.map field := by
  induction values generalizing list with
  | nil => rfl
  | cons first rest ih =>
    rw [foldl_cons, ih]
    apply ext_getElem (by simp)
    intro index _ _
    rw [List.getElem_map, List.getElem_map, List.getElem_modify]
    split
    · exact kept first _
    · rfl

theorem foldl_modify_preserves (holds : Nat → α → Prop) {values : List χ} (kept : ∀ x ∈ values, ∀ a, holds (place x) a → holds (place x) (put x a))
    {list : List α} (before : ∀ (index : Nat) (a : α), list[index]? = some a → holds index a) :
    ∀ (index : Nat) (a : α), (values.foldl (fun list x => list.modify (place x) (put x)) list)[index]? = some a → holds index a := by
  induction values generalizing list with
  | nil => exact before
  | cons first rest ih =>
    refine ih (fun x member => kept x (.tail _ member)) fun index a here => ?_
    rw [List.getElem?_modify] at here
    obtain ⟨old, there, same⟩ := Option.map_eq_some_iff.mp here
    have held := before index old there
    by_cases hit : place first = index
    · subst hit
      rw [if_pos rfl] at same
      exact same ▸ kept first (.head _) old held
    · rw [if_neg hit] at same
      exact same ▸ held

theorem foldl_modify_beside {values : List χ} {index} (beside : ∀ x ∈ values, place x ≠ index) (list : List α) :
    (values.foldl (fun list x => list.modify (place x) (put x)) list)[index]? = list[index]? := by
  induction values generalizing list with
  | nil => rfl
  | cons first rest ih =>
    have missed := beside first (.head _)
    rw [foldl_cons, ih (fun x member => beside x (.tail _ member)), List.getElem?_modify]
    simp only [missed, if_false, Option.map_eq_map, Option.map_id']

theorem foldl_modify_reaches (holds : α → Prop) {values : List χ} {index : Nat} (puts : ∀ x ∈ values, place x = index → ∀ a, holds (put x a))
    (hit : ∃ x ∈ values, place x = index) {list : List α}
    (here : (values.foldl (fun list x => list.modify (place x) (put x)) list)[index]? = some a) : holds a := by
  induction values generalizing list with
  | nil =>
    obtain ⟨_, member, _⟩ := hit
    cases member
  | cons first rest ih =>
    by_cases later : ∃ x ∈ rest, place x = index
    · exact ih (fun x member => puts x (.tail _ member)) later here
    · have beside : ∀ x ∈ rest, place x ≠ index := fun x member same => later ⟨x, member, same⟩
      obtain ⟨x, member, same⟩ := hit
      obtain rfl := (List.mem_cons.mp member).resolve_right fun among => beside x among same
      rw [foldl_cons, foldl_modify_beside beside, List.getElem?_modify] at here
      obtain ⟨old, _, now⟩ := Option.map_eq_some_iff.mp here
      rw [if_pos same] at now
      exact now ▸ puts x (.head _) same old

end

theorem follows_filled (prior : PendingSignAction) (spends : List (Nat × SignActionSpend)) :
    Follows prior.tx (prior.withInputs (prior.filledInputs spends)).tx := by
  refine ⟨rfl, ?_⟩
  refine (foldl_modify_map ?_ prior.pdi _).trans (foldl_modify_map ?_ spends _)
  · exact fun _ _ => rfl
  · exact fun _ _ => rfl

theorem Follows.trans (one : Follows first second) (two : Follows second third) : Follows first third :=
  ⟨two.outputs.trans one.outputs, two.outpoints.trans one.outpoints⟩

theorem signInput_ok {tx : Transaction} {input signed vin} (signs : tx.signInput sdk input vin = .ok signed) :
    (signed.sourceTXID = input.sourceTXID ∧ signed.sourceOutputIndex = input.sourceOutputIndex) ∧
      (input.unlockingScriptTemplate = none → signed = input) := by
  unfold Transaction.signInput at signs
  split at signs
  next =>
    cases signs
    exact ⟨⟨rfl, rfl⟩, fun _ => rfl⟩
  next template here =>
    obtain ⟨script, _, same⟩ := bind_eq_ok.mp signs
    cases same
    refine ⟨⟨rfl, rfl⟩, fun none => ?_⟩
    cases here.symm.trans none

theorem sign_ok {tx signed : Transaction} (signs : tx.sign sdk = .ok signed) {n}
    (plain : ∀ vin input, tx.inputs[vin]? = some input → vin < n → input.unlockingScriptTemplate = none) :
    Follows tx signed ∧ signed.scriptLengths n = tx.scriptLengths n := by
  obtain ⟨inputs, each, same⟩ := bind_eq_ok.mp signs
  cases same
  obtain ⟨long, signsEach⟩ := mapM_zipIdx_ok (tx.signInput sdk) each
  have signsAt : ∀ vin (before : vin < tx.inputs.length) (after : vin < inputs.length),
      tx.signInput sdk tx.inputs[vin] (0 + vin) = .ok inputs[vin] := by
    intro vin before after
    exact signsEach vin _ _ (List.getElem?_eq_getElem before) (List.getElem?_eq_getElem after)
  constructor
  · refine ⟨rfl, ?_⟩
    apply ext_getElem
    · rw [length_map, length_map, long]
    · intro vin after before
      rw [length_map] at after before
      obtain ⟨⟨txid, index⟩, _⟩ := signInput_ok (signsAt vin before after)
      rw [List.getElem_map, List.getElem_map, txid, index]
  · apply ext_getElem
    · simp only [Transaction.scriptLengths, length_map, length_take, long]
    · intro vin after before
      simp only [Transaction.scriptLengths, length_map, length_take] at after before
      have inside : vin < tx.inputs.length := by omega
      have unchanged := (signInput_ok (signsAt vin inside (long ▸ inside))).2
        (plain vin _ (List.getElem?_eq_getElem inside) (by omega))
      simp only [Transaction.scriptLengths, List.getElem_map, List.getElem_take]
      rw [unchanged]

theorem scriptLengths_related {related : Nat → Nat → Prop} {tx : Transaction} {asked : List ValidCreateActionInput}
    {length : ValidCreateActionInput → Nat} (long : asked.length ≤ tx.inputs.length)
    (each : ∀ (vin : Nat) (given : ValidCreateActionInput) (input : TransactionInput), asked[vin]? = some given → tx.inputs[vin]? = some input →
      related input.scriptLength (length given)) : List.Forall₂ related (tx.scriptLengths asked.length) (asked.map length) := by
  rw [List.forall₂_iff_get]
  constructor
  · rw [Transaction.scriptLengths, length_map, length_map, length_take]
    omega
  · intro vin first second
    rw [length_map] at second
    simp only [Transaction.scriptLengths, get_eq_getElem, List.getElem_map, List.getElem_take]
    exact each vin _ _ (List.getElem?_eq_getElem second) (List.getElem?_eq_getElem (by omega))

def zeroSpend (given : ValidCreateActionInput) : SignActionSpend :=
  ⟨Hex.encode (replicate given.unlockingScriptLength 0), none⟩

def zeroSpends (asked : List ValidCreateActionInput) (chosen : ValidCreateActionInput → Bool) : List (Nat × SignActionSpend) :=
  (asked.zipIdx.filter fun (given, _) => chosen given).map fun (given, vin) => (vin, zeroSpend given)

theorem zeroSpend_script (given) :
    asBsvSdkScript (zeroSpend given).unlockingScript = .ok (replicate given.unlockingScriptLength 0) := by
  rw [zeroSpend, asBsvSdkScript, Hex.decode_encode]

theorem mem_zeroSpends :
    spend ∈ zeroSpends asked chosen ↔ ∃ given, asked[spend.1]? = some given ∧ chosen given ∧ spend.2 = zeroSpend given := by
  unfold zeroSpends
  constructor
  · intro member
    obtain ⟨⟨given, vin⟩, listed, rfl⟩ := mem_map.mp member
    obtain ⟨here, picked⟩ := List.mem_filter.mp listed
    exact ⟨given, List.mem_zipIdx_iff_getElem?.mp here, picked, rfl⟩
  · rintro ⟨given, here, picked, same⟩
    refine mem_map.mpr ⟨(given, spend.1), List.mem_filter.mpr ⟨List.mem_zipIdx_iff_getElem?.mpr here, picked⟩, ?_⟩
    exact Prod.ext rfl same.symm

theorem zeroSpend_fits (unsigned : given.unlockingScript.getD "" = "") :
    spendRefused given (zeroSpend given) = none := by
  have long : (zeroSpend given).unlockingScript.length = 2 * given.unlockingScriptLength := by
    rw [zeroSpend, Hex.encode_length, List.length_replicate]
  unfold spendRefused
  rw [if_neg (not_not_intro unsigned), long, if_neg (Nat.lt_irrefl _)]

theorem spendAccepted_length (accepted : SpendAccepted args spend) (here : args.inputs[spend.1]? = some given) :
    given.unlockingScript.getD "" = "" ∧ ∀ input, (putSpend spend input).scriptLength ≤ given.unlockingScriptLength := by
  obtain ⟨other, script, there, fits, parsed⟩ := accepted
  cases here.symm.trans there
  unfold spendRefused at fits
  split at fits
  next => cases fits
  next unsigned =>
    split at fits
    next => cases fits
    next short =>
      refine ⟨not_not.mp unsigned, fun input => ?_⟩
      have long := asBsvSdkScript_length parsed
      have put : (putSpend spend input).scriptLength = script.length := by
        rw [putSpend, parsed]
        rfl
      omega

/-- The scripts that the caller gives are the empty ones, and he declares no length for them. -/
def LengthsInBytes (asked : List ValidCreateActionInput) : Prop :=
  ∀ given ∈ asked, given.unlockingScript.getD "" = "" ∧ (given.unlockingScript = some "" → given.unlockingScriptLength = 0)

theorem LengthsInBytes.declared (lengths : LengthsInBytes asked)
    (member : given ∈ asked) : plannedLength given = given.unlockingScriptLength ∧ givenLength given = given.unlockingScriptLength := by
  obtain ⟨unsigned, empty⟩ := lengths given member
  unfold plannedLength givenLength
  cases here : given.unlockingScript with
  | none => exact ⟨rfl, rfl⟩
  | some text =>
    rw [here] at unsigned
    obtain rfl : text = "" := unsigned
    rw [empty here]
    exact ⟨rfl, rfl⟩

namespace Built

variable {plan : ActionPlan} {asked : List ValidCreateActionInput} {allocated : Nat} {prior : PendingSignAction}

variable (built : Built plan asked allocated prior)
include built

theorem built_at (here : prior.tx.inputs[vin]? = some input) :
    ∃ planned, planned.vin = vin ∧ BuiltInput asked planned input := by
  obtain ⟨inside, rfl⟩ := List.getElem?_eq_some_iff.mp here
  have first := built.inputs.length_eq ▸ inside
  have place := (built.planned.each vin _ (List.getElem?_eq_getElem first)).vin
  exact ⟨_, place, built.inputs.get first inside⟩

theorem caller_length {vin : Nat} {input given}
    (here : prior.tx.inputs[vin]? = some input) (asks : asked[vin]? = some given) :
    (given.unlockingScript.getD "").length = 2 * input.scriptLength := by
  obtain ⟨planned, rfl, shape⟩ := built.built_at here
  obtain ⟨_, _, script, parsed, unlocks⟩ := shape.caller given asks
  rw [asBsvSdkScript_length parsed, TransactionInput.scriptLength, unlocks, Option.getD_some]

theorem templates_beside (caller : vin < asked.length) :
    ∀ pdi ∈ prior.pdi, pdi.vin ≠ vin := by
  intro pdi member same
  have beyond := (built.templates pdi member).wallet
  omega

theorem filled_plain (spends) :
    ∀ vin input, (prior.filledInputs spends)[vin]? = some input → vin < asked.length → input.unlockingScriptTemplate = none := by
  intro vin input here caller
  rw [PendingSignAction.filledInputs, foldl_modify_beside (built.templates_beside caller)] at here
  refine foldl_modify_preserves (fun _ input => input.unlockingScriptTemplate = none) ?_ ?_ vin input here
  · exact fun _ _ _ none => none
  · intro index old there
    obtain ⟨_, _, shape⟩ := built.built_at there
    exact shape.template

theorem filled_le (lengths : LengthsInBytes asked) {spends : List (Nat × SignActionSpend)}
    (accepted : prior.Accepts spends) :
    List.Forall₂ (· ≤ ·) ((prior.withInputs (prior.filledInputs spends)).tx.scriptLengths asked.length) (asked.map plannedLength) := by
  have long := built.inputs_length (follows_filled prior spends)
  refine scriptLengths_related (by omega) fun vin given input asks here => ?_
  have caller := (List.getElem?_eq_some_iff.mp asks).1
  have put : (prior.filledInputs spends)[vin]? = some input := here
  rw [PendingSignAction.filledInputs, foldl_modify_beside (built.templates_beside caller)] at put
  refine foldl_modify_preserves
    (fun index input => ∀ given, asked[index]? = some given → input.scriptLength ≤ plannedLength given) ?_ ?_ vin input put given asks
  · intro spend member old _ given there
    rw [(lengths.declared (List.mem_of_getElem? there)).1]
    have place := built.args.symm ▸ there
    exact (spendAccepted_length (accepted.spends spend member).1 place).2 old
  · intro index old there given asks
    have length := built.caller_length there asks
    rw [(lengths given (List.mem_of_getElem? asks)).1] at length
    have empty : "".length = 0 := rfl
    omega

theorem zeroSpends_accepted (chosen : ValidCreateActionInput → Bool)
    (unsigned : ∀ given, chosen given → given.unlockingScript.getD "" = "") : prior.Accepts (zeroSpends asked chosen) := by
  have long := built.inputs_length ⟨rfl, rfl⟩
  refine ⟨fun spend member => ?_, fun pdi member => ⟨(built.templates pdi member).template, (built.templates pdi member).inside⟩⟩
  obtain ⟨given, here, picked, same⟩ := mem_zeroSpends.mp member
  have inside := (List.getElem?_eq_some_iff.mp here).1
  have fits := same ▸ zeroSpend_fits (unsigned given picked)
  have parsed := zeroSpend_script given
  rw [← same] at parsed
  exact ⟨⟨given, _, built.args.symm ▸ here, fits, parsed⟩, by omega⟩

theorem filled_zeroSpends (chosen : ValidCreateActionInput → Bool) :
    (prior.withInputs (prior.filledInputs (zeroSpends asked chosen))).tx.scriptLengths asked.length =
      asked.map fun given => if chosen given then given.unlockingScriptLength else (given.unlockingScript.getD "").length / 2 := by
  have long := built.inputs_length (follows_filled prior (zeroSpends asked chosen))
  rw [← List.forall₂_eq_eq_eq]
  refine scriptLengths_related (by omega) fun vin given input asks here => ?_
  have caller := (List.getElem?_eq_some_iff.mp asks).1
  have put : (prior.filledInputs (zeroSpends asked chosen))[vin]? = some input := here
  rw [PendingSignAction.filledInputs, foldl_modify_beside (built.templates_beside caller)] at put
  cases picked : chosen given with
  | true =>
    rw [if_pos rfl]
    refine foldl_modify_reaches (fun input => input.scriptLength = given.unlockingScriptLength) ?_ ?_ put
    · intro spend member place old
      obtain ⟨other, there, _, same⟩ := mem_zeroSpends.mp member
      rw [place] at there
      cases asks.symm.trans there
      rw [putSpend, same, zeroSpend_script]
      exact List.length_replicate
    · exact ⟨(vin, zeroSpend given), mem_zeroSpends.mpr ⟨given, asks, picked, rfl⟩, rfl⟩
  | false =>
    have beside : ∀ spend ∈ zeroSpends asked chosen, spend.1 ≠ vin := by
      intro spend member place
      obtain ⟨other, there, taken, _⟩ := mem_zeroSpends.mp member
      rw [place] at there
      cases asks.symm.trans there
      exact absurd taken (by simp [picked])
    rw [foldl_modify_beside beside] at put
    have length := built.caller_length put asks
    rw [if_neg (by simp)]
    omega

theorem planned_of_lengths (some : plan.result.outputs ≠ []) (lengths : LengthsInBytes asked) :
    SignedAsPlanned sdk plan asked prior := by
  intro spends after ran
  obtain ⟨accepted, rfl⟩ := insertScripts_ok.mp ran
  have filled := follows_filled prior spends
  have le := built.filled_le lengths accepted
  have given := List.map_congr_left fun given member => (lengths.declared member).2.trans (lengths.declared member).1.symm
  refine ⟨built.asPlanned some filled le given, fun signed signs => ?_⟩
  obtain ⟨tx, ran, rfl⟩ := signInputs_ok.mp signs
  obtain ⟨follows, same⟩ := sign_ok ran (built.filled_plain spends)
  exact built.asPlanned some (filled.trans follows) (same ▸ le) given

theorem given_of_planned (some : plan.result.outputs ≠ []) (planned : SignedAsPlanned sdk plan asked prior) :
    ∀ given ∈ asked, given.unlockingScript.getD "" = "" := by
  have accepted := built.zeroSpends_accepted (fun given => given.unlockingScript = none) fun given none => by
    rw [of_decide_eq_true none]
    rfl
  have attempt := (planned _ _ (insertScripts_ok.mpr ⟨accepted, rfl⟩)).1
  have lengths := built.filled_zeroSpends fun given => given.unlockingScript = none
  have scripts : (asked.map fun given : ValidCreateActionInput => if decide (given.unlockingScript = none) then given.unlockingScriptLength
      else (given.unlockingScript.getD "").length / 2) = asked.map givenLength := by
    refine List.map_congr_left fun given _ => ?_
    unfold givenLength
    cases given.unlockingScript <;> rfl
  rw [scripts] at lengths
  have balance := built.size_balance some (follows_filled prior (zeroSpends asked fun given => given.unlockingScript = none))
  have sized := attempt.size_eq lengths
  rw [lengths, sized] at balance
  have shorter : List.Forall₂ (· ≤ ·) (asked.map givenLength) (asked.map plannedLength) := by
    rw [List.forall₂_map_left_iff, List.forall₂_map_right_iff, List.forall₂_same]
    intro given _
    unfold givenLength plannedLength
    cases given.unlockingScript with
    | none => exact le_rfl
    | some script => exact Nat.div_le_self _ _
  have same := inputSizes_eq shorter (by omega)
  intro given member
  have equal := List.map_inj_left.mp same given member
  unfold givenLength plannedLength at equal
  cases here : given.unlockingScript with
  | none => rfl
  | some script =>
    rw [here] at equal
    have half : script.length / 2 = script.length := equal
    have empty : script.length = 0 := by omega
    exact String.length_eq_zero_iff.mp empty

theorem declared_of_planned (some : plan.result.outputs ≠ []) (planned : SignedAsPlanned sdk plan asked prior)
    (unsigned : ∀ given ∈ asked, given.unlockingScript.getD "" = "") : LengthsInBytes asked := by
  have accepted := built.zeroSpends_accepted (fun given => given.unlockingScript.getD "" = "") fun given empty => of_decide_eq_true empty
  have attempt := (planned _ _ (insertScripts_ok.mpr ⟨accepted, rfl⟩)).1
  have lengths := built.filled_zeroSpends fun given => given.unlockingScript.getD "" = ""
  have scripts : (asked.map fun given : ValidCreateActionInput => if decide (given.unlockingScript.getD "" = "") then given.unlockingScriptLength
      else (given.unlockingScript.getD "").length / 2) = asked.map (·.unlockingScriptLength) := by
    refine List.map_congr_left fun given member => ?_
    rw [if_pos (decide_eq_true (unsigned given member))]
  rw [scripts] at lengths
  have balance := built.size_balance some (follows_filled prior (zeroSpends asked fun given => given.unlockingScript.getD "" = ""))
  have sized := attempt.size_le
  rw [lengths] at balance
  have longer : List.Forall₂ (· ≤ ·) (asked.map plannedLength) (asked.map (·.unlockingScriptLength)) := by
    rw [List.forall₂_map_left_iff, List.forall₂_map_right_iff, List.forall₂_same]
    intro given member
    have empty := unsigned given member
    unfold plannedLength
    cases here : given.unlockingScript with
    | none => exact le_rfl
    | some script =>
      rw [here] at empty
      obtain rfl : script = "" := empty
      exact Nat.zero_le _
  have below := inputSizes_le longer
  have same := inputSizes_eq longer (by omega)
  intro given member
  refine ⟨unsigned given member, fun empty => ?_⟩
  have equal := List.map_inj_left.mp same given member
  rw [plannedLength, empty] at equal
  exact equal.symm

end Built

/-- The transaction is the planned one, with whatever spends, exactly if there is an output
and the caller gives no script but the empty one, for which he declares no length. -/
theorem planned_iff (locks : sdk.LocksChange) {storage : ActionStorage} {vargs : ValidCreateActionArgs} {funding : Funding}
    {plan : ActionPlan} {prior : PendingSignAction} (plans : planAction storage (removeUnlockScripts vargs) funding = .ok plan)
    (builds : buildSignableTransaction sdk plan.result vargs = .ok prior) :
    SignedAsPlanned sdk plan vargs.inputs prior ↔ plan.result.outputs ≠ [] ∧ LengthsInBytes vargs.inputs := by
  have built := buildSignableTransaction_ok locks plans builds
  constructor
  · intro planned
    have some : plan.result.outputs ≠ [] := by
      intro none
      have accepted := built.zeroSpends_accepted (fun _ => false) nofun
      have outputs := (planned _ _ (insertScripts_ok.mpr ⟨accepted, rfl⟩)).1.outputs.length
      rw [(follows_filled prior _).outputs, built.none_planned none, none] at outputs
      cases outputs
    exact ⟨some, built.declared_of_planned some planned (built.given_of_planned some planned)⟩
  · rintro ⟨some, lengths⟩
    exact built.planned_of_lengths some lengths

def changeSdk : Sdk :=
  { sampleSdk with lock := fun _ _ => .ok ([0x76, 0xa9, 0x14] ++ replicate 20 0x2a ++ [0x88, 0xac]) }

theorem changeSdk_locks : changeSdk.LocksChange := by
  intro _ _ script made
  cases made
  rfl

def sampleActionStorage : ActionStorage where
  findOutput _ := none
  findOutput_found _ _ found := by cases found
  sourceOutput _ := .ok (1000, [0x51])
  getRawTx _ := none
  commission := none
  reference := "ref"
  inputBeef := some []
  random _ := 0

/-- The rest as change. -/
def sampleFunding : Funding := ⟨[], [(99, "suffix")], "prefix", none⟩

/-- The plan for the sample arguments, with this length for its input, computed for a transaction of this size. -/
def fundedPlan (unlockingScriptLength size : Nat) : ActionPlan where
  result := {
    reference := "ref"
    inputs := [⟨0, "source", 0, 1000, "51", none, unlockingScriptLength, "custom", none, none, none⟩]
    outputs := [⟨0, 900, "51", .you, none, none⟩, ⟨1, 99, "", .storage, some "change", some "suffix"⟩]
    derivationPrefix := "prefix"
    inputBeef := some []
    noSendChangeOutputVouts := none }
  size

def givenActionArgs : ValidCreateActionArgs :=
  { sampleActionArgs with inputs := [⟨⟨"source", 0⟩, 0xffffffff, some "51", 1⟩], isSignAction := false }

def builtTransaction (args : ValidCreateActionArgs) (plan : ActionPlan) (script : Script) (sourceTransaction : Option Bytes) : PendingSignAction where
  reference := "ref"
  dcr := plan.result
  args
  tx := ⟨1, [⟨"source", 0, sourceTransaction, some script, none, 0xffffffff⟩],
    [⟨900, [0x51], false⟩, ⟨99, [0x76, 0xa9, 0x14] ++ replicate 20 0x2a ++ [0x88, 0xac], true⟩], 0⟩
  amount := -99
  pdi := []

theorem planned_sample :
    SignedAsPlanned changeSdk (fundedPlan 1 96) sampleActionArgs.inputs (builtTransaction sampleActionArgs (fundedPlan 1 96) [] (some [])) := by
  have plans : planAction sampleActionStorage (removeUnlockScripts sampleActionArgs) sampleFunding = .ok (fundedPlan 1 96) := by
    decide +kernel
  have builds : buildSignableTransaction changeSdk (fundedPlan 1 96).result sampleActionArgs =
      .ok (builtTransaction sampleActionArgs (fundedPlan 1 96) [] (some [])) := by
    decide +kernel
  refine (planned_iff changeSdk_locks plans builds).mpr ⟨by decide, ?_⟩
  intro given member
  cases List.mem_singleton.mp member
  exact ⟨rfl, nofun⟩

/-- A script that is given is planned with the number of its digits. -/
theorem given_script_planned :
    planAction sampleActionStorage (removeUnlockScripts givenActionArgs) sampleFunding = .ok (fundedPlan 2 97) ∧
      buildSignableTransaction changeSdk (fundedPlan 2 97).result givenActionArgs =
        .ok (builtTransaction givenActionArgs (fundedPlan 2 97) [0x51] none) ∧
      ¬ SignedAsPlanned changeSdk (fundedPlan 2 97) givenActionArgs.inputs (builtTransaction givenActionArgs (fundedPlan 2 97) [0x51] none) := by
  refine ⟨by decide +kernel, by decide +kernel, fun planned => ?_⟩
  have completed := (planned [] _ (by rfl)).1
  have sized := completed.size_eq (by decide +kernel)
  exact absurd sized (by decide +kernel)

end WalletToolbox

import WalletToolbox.Signer.SignerActions

/-! Nothing is committed before it is verified. `createAction` verifies the scripts of its
transaction and then hands it to storage; `signAction` hands it to storage first. -/

namespace WalletToolbox
open Async Effects
open Program (ofExcept_ok_bind run_bind_of_error run_bind_of_ok run_enter run_preserves)

variable {sdk : Sdk}

def SpendsValid (sdk : Sdk) (beef : sdk.Beef) (tx : Transaction) : Prop :=
  ∀ vin input, tx.inputs[vin]? = some input → ∃ source script, sourceOutput sdk beef input = some source ∧
    input.unlockingScript = some script ∧ sdk.validate (spendOf tx vin input source script) = .ok true

def HoldsSources (sdk : Sdk) (beef : sdk.Beef) (tx : Transaction) : Prop :=
  ∀ input ∈ tx.inputs, sdk.findTx beef input.sourceTXID ≠ none

theorem hasSources_true
    (held : ∀ input ∈ inputs, sdk.findTx beef input.sourceTXID ≠ none) (looked : hasSources sdk beef inputs vin = .ok found) :
    found = true := by
  fun_induction hasSources sdk beef inputs vin with
  | case1 => exact (Except.ok.inj looked).symm
  | case2 => cases looked
  | case3 => cases looked
  | case4 input rest vin _ _ missing => exact absurd missing (held input (.head rest))
  | case5 input rest vin _ _ _ ih => exact ih (fun input member => held input (.tail _ member)) looked

theorem verifySpend_ok
    (verified : verifySpend sdk beef tx input vin = .ok ()) :
    ∃ source script, sourceOutput sdk beef input = some source ∧ input.unlockingScript = some script ∧
      sdk.validate (spendOf tx vin input source script) = .ok true := by
  unfold verifySpend at verified
  split at verified
  next source script spends unlocks =>
    split at verified
    next valid => exact ⟨source, script, spends, unlocks, valid⟩
    next => cases verified
    next => cases verified
  next => cases verified

theorem forM_ok {ε α : Type} {each : α → Except ε Unit} {values : List α} (passed : values.forM each = .ok ()) :
    ∀ value ∈ values, each value = .ok () := by
  induction values with
  | nil => exact nofun
  | cons first rest ih =>
    obtain ⟨_, ran, later⟩ := bind_eq_ok.mp passed
    intro value member
    rcases List.mem_cons.mp member with rfl | member
    · exact ran
    · exact ih later value member

theorem verifyUnlockScripts_valid {tx} (found : sdk.findTx beef txid = some tx)
    (held : HoldsSources sdk beef tx) (verified : verifyUnlockScripts sdk txid beef = .ok ()) : SpendsValid sdk beef tx := by
  unfold verifyUnlockScripts at verified
  rw [found] at verified
  obtain ⟨complete, looked, checked⟩ := bind_eq_ok.mp verified
  rw [if_pos (hasSources_true held looked)] at checked
  intro vin input here
  have listed : (input, vin) ∈ tx.inputs.zipIdx := List.mem_zipIdx_iff_getElem?.mpr here
  exact verifySpend_ok (forM_ok checked (input, vin) listed)

namespace PendingSignAction

def withInputs (prior : PendingSignAction) (inputs : List TransactionInput) : PendingSignAction :=
  { prior with tx := { prior.tx with inputs } }

theorem setInput_withInputs (prior : PendingSignAction) (inputs : List TransactionInput) (vin : Nat) (input : TransactionInput) :
    (prior.withInputs inputs).setInput vin input = prior.withInputs (inputs.set vin input) := rfl

end PendingSignAction

def changeInput {χ : Type} (vin : χ → Nat) (changed : PendingSignAction → χ → Except SignerError TransactionInput) (x : χ) :
    PendingM Unit := do
  let prior ← Fallible.current
  let input ← Fallible.ofExcept (changed prior x)
  Fallible.change fun prior => prior.setInput (vin x) input

section
variable {χ : Type} {vin : χ → Nat} {changed : PendingSignAction → χ → Except SignerError TransactionInput}
  {accepts : χ → Prop} {put : χ → TransactionInput → TransactionInput} {prior after : PendingSignAction}

theorem changeInput_ok : changeInput vin changed x prior = (.ok (), after) ↔
    ∃ input, changed prior x = .ok input ∧ after = prior.setInput (vin x) input := by
  exact Fallible.ofExcept_change_ok

theorem changeInputs_ok (vin : χ → Nat) (changed : PendingSignAction → χ → Except SignerError TransactionInput)
    (spec : ∀ inputs x input, changed (prior.withInputs inputs) x = .ok input ↔
      accepts x ∧ ∃ old, inputs[vin x]? = some old ∧ input = put x old) (values : List χ) (inputs : List TransactionInput) :
    values.forM (changeInput vin changed) (prior.withInputs inputs) = (.ok (), after) ↔
      (∀ x ∈ values, accepts x ∧ vin x < inputs.length) ∧
        after = prior.withInputs (values.foldl (fun inputs x => inputs.modify (vin x) (put x)) inputs) := by
  induction values generalizing inputs with
  | nil =>
    constructor
    · intro ran
      exact ⟨nofun, (Prod.mk.inj ran).2.symm⟩
    · rintro ⟨-, rfl⟩
      rfl
  | cons first rest ih =>
    have modified : ∀ old, inputs[vin first]? = some old →
        inputs.set (vin first) (put first old) = inputs.modify (vin first) (put first) := by
      intro old here
      rw [List.modify_eq_set_getElem?, here]
      rfl
    have longer : (inputs.modify (vin first) (put first)).length = inputs.length := List.length_modify ..
    constructor
    · intro ran
      obtain ⟨_, middle, changes, later⟩ := Fallible.bind_ok ran
      obtain ⟨input, one, rfl⟩ := changeInput_ok.mp changes
      obtain ⟨accepted, old, here, rfl⟩ := (spec inputs first input).mp one
      rw [PendingSignAction.setInput_withInputs, modified old here] at later
      obtain ⟨others, same⟩ := (ih _).mp later
      rw [longer] at others
      have inside := (List.getElem?_eq_some_iff.mp here).1
      exact ⟨List.forall_mem_cons.mpr ⟨⟨accepted, inside⟩, others⟩, same⟩
    · rintro ⟨all, rfl⟩
      obtain ⟨⟨accepted, inside⟩, others⟩ := List.forall_mem_cons.mp all
      have here := List.getElem?_eq_getElem inside
      have changes : changeInput vin changed first (prior.withInputs inputs) =
          (.ok (), prior.withInputs (inputs.modify (vin first) (put first))) := by
        rw [← modified _ here]
        exact changeInput_ok.mpr ⟨_, (spec inputs first _).mpr ⟨accepted, _, here, rfl⟩, rfl⟩
      rw [← longer] at others
      exact (Fallible.bind_of_ok changes).trans ((ih _).mpr ⟨others, rfl⟩)

end

def SpendAccepted (args : ValidCreateActionArgs) (spend : Nat × SignActionSpend) : Prop :=
  ∃ createInput script, args.inputs[spend.1]? = some createInput ∧ spendRefused createInput spend.2 = none ∧
    asBsvSdkScript spend.2.unlockingScript = .ok script

def putSpend (spend : Nat × SignActionSpend) (input : TransactionInput) : TransactionInput :=
  { input with
    unlockingScript := (asBsvSdkScript spend.2.unlockingScript).toOption
    sequence := spend.2.sequenceNumber.getD input.sequence }

def putTemplate (pdi : PendingStorageInput) (input : TransactionInput) : TransactionInput :=
  { input with unlockingScriptTemplate := (unlockTemplate pdi).toOption }

namespace PendingSignAction

def filledInputs (prior : PendingSignAction) (spends : List (Nat × SignActionSpend)) : List TransactionInput :=
  prior.pdi.foldl (fun inputs pdi => inputs.modify pdi.vin (putTemplate pdi))
    (spends.foldl (fun inputs spend => inputs.modify spend.1 (putSpend spend)) prior.tx.inputs)

def requested (sdk : Sdk) (prior : PendingSignAction) (spends : List (Nat × SignActionSpend)) : Except SignerError Transaction :=
  (prior.withInputs (prior.filledInputs spends)).tx.sign sdk

structure Accepts (prior : PendingSignAction) (spends : List (Nat × SignActionSpend)) : Prop where
  spends : ∀ spend ∈ spends, SpendAccepted prior.args spend ∧ spend.1 < prior.tx.inputs.length
  templates : ∀ pdi ∈ prior.pdi, (∃ template, unlockTemplate pdi = .ok template) ∧ pdi.vin < prior.tx.inputs.length

end PendingSignAction

theorem spentInput_ok (prior : PendingSignAction) (inputs : List TransactionInput) (spend : Nat × SignActionSpend)
    (input : TransactionInput) : spentInput (prior.withInputs inputs) spend.1 spend.2 = .ok input ↔
      SpendAccepted prior.args spend ∧ ∃ old, inputs[spend.1]? = some old ∧ input = putSpend spend old := by
  unfold spentInput
  constructor
  · intro spent
    split at spent
    next createInput old given here =>
      split at spent
      next => cases spent
      next fits =>
        obtain ⟨script, parsed, same⟩ := bind_eq_ok.mp spent
        cases same
        refine ⟨⟨createInput, script, given, fits, parsed⟩, old, here, ?_⟩
        rw [putSpend, parsed]
        rfl
    next => cases spent
  · rintro ⟨⟨createInput, script, given, fits, parsed⟩, old, here, rfl⟩
    have createdAt : (prior.withInputs inputs).args.inputs[spend.1]? = some createInput := given
    have inputAt : (prior.withInputs inputs).tx.inputs[spend.1]? = some old := here
    rw [createdAt, inputAt]
    simp only [fits, parsed, ok_bind]
    rw [putSpend, parsed]
    rfl

theorem templatedInput_ok (prior : PendingSignAction) (inputs : List TransactionInput) (pdi : PendingStorageInput)
    (input : TransactionInput) : templatedInput (prior.withInputs inputs) pdi = .ok input ↔
      (∃ template, unlockTemplate pdi = .ok template) ∧ ∃ old, inputs[pdi.vin]? = some old ∧ input = putTemplate pdi old := by
  unfold templatedInput
  have inputAt : (prior.withInputs inputs).tx.inputs[pdi.vin]? = inputs[pdi.vin]? := rfl
  rw [inputAt]
  constructor
  · intro templated
    obtain ⟨template, made, templated⟩ := bind_eq_ok.mp templated
    split at templated
    next old here =>
      cases templated
      refine ⟨⟨template, made⟩, old, here, ?_⟩
      rw [putTemplate, made]
      rfl
    next => cases templated
  · rintro ⟨⟨template, made⟩, old, here, rfl⟩
    rw [made, here, putTemplate, made]
    rfl

theorem insertSpends_ok (prior : PendingSignAction) (inputs : List TransactionInput) (spends : List (Nat × SignActionSpend)) :
    (spends.forM (fun (vin, spend) => insertSpend vin spend) : PendingM Unit) (prior.withInputs inputs) = (.ok (), after) ↔
      (∀ spend ∈ spends, SpendAccepted prior.args spend ∧ spend.1 < inputs.length) ∧
        after = prior.withInputs (spends.foldl (fun inputs spend => inputs.modify spend.1 (putSpend spend)) inputs) :=
  changeInputs_ok Prod.fst (fun prior spend => spentInput prior spend.1 spend.2) (spentInput_ok prior) spends inputs

theorem insertTemplates_ok (prior : PendingSignAction) (inputs : List TransactionInput) :
    (prior.pdi.forM insertTemplate : PendingM Unit) (prior.withInputs inputs) = (.ok (), after) ↔
      (∀ pdi ∈ prior.pdi, (∃ template, unlockTemplate pdi = .ok template) ∧ pdi.vin < inputs.length) ∧
        after = prior.withInputs (prior.pdi.foldl (fun inputs pdi => inputs.modify pdi.vin (putTemplate pdi)) inputs) :=
  changeInputs_ok PendingStorageInput.vin templatedInput (templatedInput_ok prior) prior.pdi inputs

theorem insertScripts_ok :
    insertScripts spends prior = (.ok (), after) ↔ prior.Accepts spends ∧ after = prior.withInputs (prior.filledInputs spends) := by
  have kept : ∀ (values : List (Nat × SignActionSpend)) (inputs : List TransactionInput),
      (values.foldl (fun inputs spend => inputs.modify spend.1 (putSpend spend)) inputs).length = inputs.length := by
    intro values
    induction values with
    | nil => exact fun inputs => rfl
    | cons first rest ih => exact fun inputs => (ih _).trans (List.length_modify ..)
  constructor
  · intro ran
    obtain ⟨_, middle, first, rest⟩ := Fallible.bind_ok ran
    obtain ⟨accepted, rfl⟩ := (insertSpends_ok prior prior.tx.inputs spends).mp first
    obtain ⟨made, same⟩ := (insertTemplates_ok prior _).mp rest
    rw [kept] at made
    exact ⟨⟨accepted, made⟩, same⟩
  · rintro ⟨accepts, rfl⟩
    have first := (insertSpends_ok prior prior.tx.inputs spends).mpr ⟨accepts.spends, rfl⟩
    refine (Fallible.bind_of_ok first).trans ((insertTemplates_ok prior _).mpr ⟨?_, rfl⟩)
    rw [kept]
    exact accepts.templates

theorem signInputs_ok :
    signInputs sdk prior = (.ok (), after) ↔ ∃ tx, prior.tx.sign sdk = .ok tx ∧ after = { prior with tx } := by
  exact Fallible.ofExcept_change_ok

variable {W : Type}

structure SignerRecord (W : Type) where
  world : W
  committed : List PendingSignAction := []

def SignerRecord.note (record : SignerRecord W) : SignerOp → SignerRecord W
  | .processAction (some prior) _ => { record with committed := record.committed ++ [prior] }
  | _ => record

def SignerOp.recording (world : Machine signerStorage W) : Machine signerStorage (SignerRecord W) := fun op record =>
  ((world op record.world).1, { record with world := (world op record.world).2 }.note op)

inductive SignerCall where
  | createAction (vargs : ValidCreateActionArgs)
  | signAction (args : SignActionArgs)

namespace SignerCall

def program (sdk : Sdk) (validate : SignActionValidation) : SignerCall → SignerM CreateActionResult
  | .createAction vargs => WalletToolbox.createAction sdk vargs
  | .signAction args => WalletToolbox.signAction sdk validate args

def beef (sdk : Sdk) (prior : PendingSignAction) : SignerCall → Except SignerError sdk.Beef
  | .createAction _ => actionBeef sdk prior
  | .signAction _ => signedBeef sdk prior

end SignerCall

def Verified (sdk : Sdk) (call : SignerCall) (prior : PendingSignAction) : Prop :=
  ∀ beef, call.beef sdk prior = .ok beef → HoldsSources sdk beef prior.tx → SpendsValid sdk beef prior.tx

section
variable (validate : SignActionValidation) (storage : Machine signerStorage W)

def afterCall (sdk : Sdk) (call : SignerCall) (state : SignerWallet × W) : SignerWallet × W :=
  ((call.program sdk validate).run storage.withFields state).2

def committedBy (sdk : Sdk) (call : SignerCall) (state : SignerWallet × W) : List PendingSignAction :=
  ((call.program sdk validate).run (SignerOp.recording storage).withFields (state.1, ⟨state.2, []⟩)).2.2.committed

end

theorem completeNewTx_verified (lawful : sdk.Lawful) (completed : completeNewTx sdk prior = .ok signed)
    (vargs : ValidCreateActionArgs) : Verified sdk (.createAction vargs) signed := by
  unfold completeNewTx at completed
  split at completed
  next => cases completed
  next _ last _ =>
    obtain ⟨beef, built, completed⟩ := bind_eq_ok.mp completed
    obtain ⟨_, verified, same⟩ := bind_eq_ok.mp completed
    cases same
    intro other builds held
    cases built.symm.trans builds
    obtain ⟨known, _, merged⟩ := bind_eq_ok.mp (show (inputsBeef sdk signed >>= _) = .ok beef from built)
    cases merged
    exact verifyUnlockScripts_valid (lawful.merged_found known signed.tx) held verified

def OnlyVerified (sdk : Sdk) (call : SignerCall) (op : (sections SignerError SignerWallet signerStorage).Op) : Prop :=
  ∀ prior args, op = .outside (.processAction (some prior) args) → Verified sdk call prior

theorem onlyVerified_enter (call : SignerCall) (body : WalletM Unit) : OnlyVerified sdk call (.enter body) := by
  intro prior args same
  cases same

theorem onlyVerified_create (call : SignerCall) (args : ValidCreateActionArgs) :
    OnlyVerified sdk call (.outside (.createAction args)) := by
  intro prior args same
  cases same

theorem processAction_verified (verified : ∀ signed, prior = some signed → Verified sdk call signed)
    (args : ValidProcessActionArgs) : (processAction prior args).Uses (OnlyVerified sdk call) := by
  refine ⟨fun signed vargs same => ?_, fun reply => .ofExcept reply⟩
  cases same
  exact verified signed rfl

theorem enter_verified (call : SignerCall) (body : WalletM Unit) : (Program.enter body : SignerM SignerWallet).Uses (OnlyVerified sdk call) :=
  ⟨onlyVerified_enter call body, fun reply => .ofExcept reply⟩

theorem createAction_verified (lawful : sdk.Lawful) (vargs : ValidCreateActionArgs) :
    (createAction sdk vargs).Uses (OnlyVerified sdk (.createAction vargs)) := by
  have creates : (createNewTx sdk vargs).Uses (OnlyVerified sdk (.createAction vargs)) := by
    refine Program.Uses.bind ⟨onlyVerified_create _ _, fun _ => trivial⟩ fun reply => ?_
    exact Program.Uses.bind (.ofExcept reply) fun dcr => .ofExcept _
  unfold createAction
  apply Program.Uses.ite
  · refine Program.Uses.bind creates fun prior => Program.Uses.ite ?_ ?_
    · unfold makeSignableTransactionResult
      apply Program.Uses.ite
      · trivial
      · exact Program.Uses.bind (.ofExcept _) fun tx => Program.Uses.bind (enter_verified _ _) fun _ => trivial
    · refine Program.Uses.bind (enter_verified _ _) fun _ => Program.Uses.ofExcept_bind fun signed completed => ?_
      refine Program.Uses.bind (.ofExcept _) fun result => Program.Uses.bind (processAction_verified ?_ _) fun processed => trivial
      intro last same
      cases same
      exact completeNewTx_verified lawful completed vargs
  · exact Program.Uses.bind (processAction_verified (fun signed same => by cases same) _) fun processed => trivial

section
variable {validate : SignActionValidation} (world : Machine signerStorage W) {wallet : SignerWallet} (outer : W)

theorem run_resumed : (resumed : SignerM SignerWallet).run world.withFields (wallet, outer) = (.ok wallet, (wallet, outer)) := by
  rw [resumed, run_enter]
  rfl

theorem pendingAction_keep (wallet : SignerWallet) (reference : String) (prior : PendingSignAction) :
    pendingAction (wallet.keep reference prior) reference = .ok prior := by
  have found : (wallet.keep reference prior).pendingSignActions reference = some prior := Function.update_self ..
  rw [pendingAction, found]

theorem run_onPending (pending : pendingAction wallet reference = .ok prior)
    (body : PendingM Unit) : (Program.enter (onPending reference body) : SignerM SignerWallet).run world.withFields (wallet, outer) =
      ((body prior).1.map fun _ => wallet, (wallet.keep reference (body prior).2, outer)) := by
  have ran : onPending reference body wallet = ((body prior).1, wallet.keep reference (body prior).2) := by
    rw [onPending, Fallible.current_bind_apply, pending, Fallible.ofExcept_ok_bind_apply, Fallible.change_bind_apply]
    cases (body prior).1 with
    | ok _ => rfl
    | error _ => rfl
  rw [run_enter, ran]

theorem run_beginSignAction
    (pending : pendingAction wallet args.reference = .ok prior) (known : prior.dcr.inputBeef ≠ none)
    (merged : mergePriorOptions validate prior.args args = .ok vargs) :
    (beginSignAction validate args).run world.withFields (wallet, outer) =
      ((insertScripts vargs.spends prior).1.map fun _ => vargs,
        (wallet.keep args.reference (insertScripts vargs.spends prior).2, outer)) := by
  refine (run_bind_of_ok (run_resumed world outer)).trans ?_
  simp only [pending, ofExcept_ok_bind, if_neg known, merged]
  have inserts := run_onPending world outer pending (insertScripts vargs.spends)
  cases ended : (insertScripts vargs.spends prior).1 with
  | ok _ =>
    rw [ended] at inserts
    exact run_bind_of_ok inserts
  | error _ =>
    rw [ended] at inserts
    exact run_bind_of_error inserts

/-- A call that is not begun changes nothing outside. -/
theorem beginSignAction_fails
    (refused : ∀ prior vargs, pendingAction wallet args.reference = .ok prior → prior.dcr.inputBeef ≠ none →
      mergePriorOptions validate prior.args args ≠ .ok vargs) :
    ∃ error, (beginSignAction validate args).run world.withFields (wallet, outer) = (.error error, (wallet, outer)) := by
  unfold beginSignAction
  cases pending : pendingAction wallet args.reference with
  | error error =>
    refine ⟨error, (run_bind_of_ok (run_resumed world outer)).trans ?_⟩
    rw [pending]
    rfl
  | ok prior =>
    by_cases known : prior.dcr.inputBeef = none
    · refine ⟨.internal "prior.dcr.inputBeef must be valid", (run_bind_of_ok (run_resumed world outer)).trans ?_⟩
      simp only [pending, ofExcept_ok_bind, if_pos known]
      rfl
    · cases merged : mergePriorOptions validate prior.args args with
      | error error =>
        refine ⟨error, (run_bind_of_ok (run_resumed world outer)).trans ?_⟩
        simp only [pending, ofExcept_ok_bind, if_neg known, merged]
        rfl
      | ok vargs => exact absurd merged (refused prior vargs pending known)

theorem completeSignedTransaction_ok :
    completeSignedTransaction sdk spends prior = (.ok (), signed) ↔
      prior.Accepts spends ∧ ∃ tx, prior.requested sdk spends = .ok tx ∧ signed = { prior with tx } := by
  constructor
  · intro ran
    obtain ⟨_, middle, inserts, signs⟩ := Fallible.bind_ok ran
    obtain ⟨accepts, rfl⟩ := insertScripts_ok.mp inserts
    obtain ⟨tx, made, rfl⟩ := signInputs_ok.mp signs
    exact ⟨accepts, tx, made, rfl⟩
  · rintro ⟨accepts, tx, made, rfl⟩
    exact (Fallible.bind_of_ok (insertScripts_ok.mpr ⟨accepts, rfl⟩)).trans (signInputs_ok.mpr ⟨tx, made, rfl⟩)

end

def HandsNothing (op : (sections SignerError SignerWallet signerStorage).Op) : Prop :=
  ∀ prior args, op ≠ .outside (.processAction (some prior) args)

theorem handsNothing_enter (body : WalletM Unit) : (Program.enter body : SignerM SignerWallet).Uses HandsNothing := by
  refine ⟨fun prior args same => ?_, fun reply => .ofExcept reply⟩
  cases same

theorem handsNothing_keeps {storage op}
    (quiet : HandsNothing op) (state : SignerWallet × SignerRecord W) :
    ((SignerOp.recording storage).withFields op state).2.2.committed = state.2.committed := by
  cases op with
  | enter body => rfl
  | outside op =>
    match op, quiet with
    | .createAction _, _ => rfl
    | .processAction none _, _ => rfl
    | .processAction (some prior) args, quiet => exact absurd rfl (quiet prior args)

theorem handsNothing_run {storage : Machine signerStorage W} {program : SignerM α} (quiet : program.Uses HandsNothing)
    (state : SignerWallet × SignerRecord W) :
    (program.run (SignerOp.recording storage).withFields state).2.2.committed = state.2.committed := by
  have keeps : ∀ op (after : SignerWallet × SignerRecord W), HandsNothing op → after.2.committed = state.2.committed →
      ((SignerOp.recording storage).withFields op after).2.2.committed = state.2.committed :=
    fun op after silent same => (handsNothing_keeps silent after).trans same
  exact run_preserves _ keeps quiet rfl

theorem signAction_hands (storage : Machine signerStorage W)
    (record : SignerRecord W)
    (pending : pendingAction wallet args.reference = .ok prior) (known : prior.dcr.inputBeef ≠ none)
    (merged : mergePriorOptions validate prior.args args = .ok vargs)
    (inserts : insertScripts vargs.spends prior = (.ok (), middle)) (signs : signInputs sdk middle = (.ok (), signed)) :
    ((signAction sdk validate args).run (SignerOp.recording storage).withFields (wallet, record)).2.2.committed =
      record.committed ++ [signed] := by
  have begun := run_beginSignAction (SignerOp.recording storage) record pending known merged
  rw [inserts] at begun
  have signing := run_onPending (SignerOp.recording storage) record
    (pendingAction_keep wallet args.reference middle) (signInputs sdk)
  rw [signs] at signing
  unfold signAction
  rw [run_bind_of_ok begun, run_bind_of_ok signing, run_bind_of_ok (run_resumed _ _), pendingAction_keep,
    ofExcept_ok_bind]
  have rest : ∀ reply : Except SignerError StorageProcessActionResults, Program.Uses HandsNothing (do
      let processed ← (.ofExcept reply : SignerM StorageProcessActionResults)
      let prior ← .ofExcept (pendingAction (← resumed) args.reference)
      .ofExcept (signActionResult sdk prior vargs processed)) := by
    intro reply
    refine Program.Uses.bind (.ofExcept reply) fun processed => Program.Uses.bind (handsNothing_enter _) fun wallet => ?_
    exact Program.Uses.bind (.ofExcept _) fun prior => .ofExcept _
  exact handsNothing_run (rest _) _

theorem committedBy_of_run {storage : Machine signerStorage W}
    (ran : (signAction sdk validate args).run (SignerOp.recording storage).withFields (wallet, ⟨world, []⟩) = (outcome, (after, record))) :
    committedBy validate storage sdk (.signAction args) (wallet, world) = record.committed := by
  unfold committedBy
  rw [SignerCall.program, ran]

theorem mem_committedBy_signAction {storage : Machine signerStorage W} : signed ∈ committedBy validate storage sdk (.signAction args) state ↔
      ∃ prior vargs, pendingAction state.1 args.reference = .ok prior ∧ prior.dcr.inputBeef ≠ none ∧
        mergePriorOptions validate prior.args args = .ok vargs ∧
        completeSignedTransaction sdk vargs.spends prior = (.ok (), signed) := by
  obtain ⟨wallet, world⟩ := state
  by_cases refused : ∀ prior vargs, pendingAction wallet args.reference = .ok prior → prior.dcr.inputBeef ≠ none →
      mergePriorOptions validate prior.args args ≠ .ok vargs
  · obtain ⟨error, ran⟩ := beginSignAction_fails (SignerOp.recording storage) ⟨world, []⟩ refused
    rw [committedBy_of_run (run_bind_of_error ran)]
    constructor
    · exact nofun
    · rintro ⟨prior, vargs, pending, known, merged, -⟩
      exact absurd merged (refused prior vargs pending known)
  · push Not at refused
    obtain ⟨prior, vargs, pending, known, merged⟩ := refused
    have only : ∀ last, (∃ prior vargs, pendingAction wallet args.reference = .ok prior ∧ prior.dcr.inputBeef ≠ none ∧
        mergePriorOptions validate prior.args args = .ok vargs ∧ completeSignedTransaction sdk vargs.spends prior = (.ok (), last)) ↔
          completeSignedTransaction sdk vargs.spends prior = (.ok (), last) := by
      intro last
      constructor
      · rintro ⟨other, others, same, -, also, completed⟩
        cases pending.symm.trans same
        cases merged.symm.trans also
        exact completed
      · intro completed
        exact ⟨prior, vargs, pending, known, merged, completed⟩
    rw [only]
    have begun := run_beginSignAction (SignerOp.recording storage) ⟨world, []⟩ pending known merged
    cases inserts : insertScripts vargs.spends prior with
    | mk outcome middle =>
      rw [inserts] at begun
      cases outcome with
      | error error =>
        rw [committedBy_of_run (run_bind_of_error begun), completeSignedTransaction, Fallible.bind_of_error inserts]
        constructor
        · exact nofun
        · intro same
          cases (Prod.mk.inj same).1
      | ok _ =>
        rw [completeSignedTransaction, Fallible.bind_of_ok inserts]
        cases signs : signInputs sdk middle with
        | mk outcome last =>
          cases outcome with
          | error error =>
            have signing := run_onPending (SignerOp.recording storage) ⟨world, []⟩
              (pendingAction_keep wallet args.reference middle) (signInputs sdk)
            rw [signs] at signing
            rw [committedBy_of_run ((run_bind_of_ok begun).trans (run_bind_of_error signing))]
            constructor
            · exact nofun
            · intro same
              cases (Prod.mk.inj same).1
          | ok _ =>
            have hands := signAction_hands storage ⟨world, []⟩ pending known merged inserts signs
            rw [show committedBy validate storage sdk (.signAction args) (wallet, world) = [last] from hands, List.mem_singleton]
            constructor
            · rintro rfl
              rfl
            · intro same
              exact (Prod.mk.inj same).2.symm

theorem onlyVerified_keeps {storage call op} (only : OnlyVerified sdk call op) (state : SignerWallet × SignerRecord W)
    (kept : ∀ prior ∈ state.2.committed, Verified sdk call prior) :
    ∀ prior ∈ ((SignerOp.recording storage).withFields op state).2.2.committed, Verified sdk call prior := by
  cases op with
  | enter body => exact kept
  | outside op =>
    match op, only with
    | .createAction _, _ => exact kept
    | .processAction none _, _ => exact kept
    | .processAction (some last) args, only =>
      intro prior handed
      rcases List.mem_append.mp handed with earlier | now
      · exact kept prior earlier
      · obtain rfl := List.mem_singleton.mp now
        exact only prior args rfl

theorem mem_committedBy_createAction (lawful : sdk.Lawful) {storage : Machine signerStorage W} :
    ∀ signed ∈ committedBy validate storage sdk (.createAction vargs) state, Verified sdk (.createAction vargs) signed := by
  have keeps : ∀ op (before : SignerWallet × SignerRecord W), OnlyVerified sdk (.createAction vargs) op →
      (∀ prior ∈ before.2.committed, Verified sdk (.createAction vargs) prior) →
      ∀ prior ∈ ((SignerOp.recording storage).withFields op before).2.2.committed, Verified sdk (.createAction vargs) prior :=
    fun op before only kept => onlyVerified_keeps only before kept
  have starts : ∀ prior ∈ (⟨state.2, []⟩ : SignerRecord W).committed, Verified sdk (.createAction vargs) prior := by
    intro prior member
    cases member
  exact run_preserves _ keeps (createAction_verified lawful vargs) starts

/-- The scripts of a call are valid: those its spends give, those earlier calls have left in
the pending transaction and those the wallet makes. A call that is turned down before the
transaction is signed asks for none. -/
def ScriptsValid (sdk : Sdk) (validate : SignActionValidation) (wallet : SignerWallet) : SignerCall → Prop
  | .createAction _ => True
  | .signAction args =>
    ∀ prior vargs tx beef, pendingAction wallet args.reference = .ok prior → prior.dcr.inputBeef ≠ none →
      mergePriorOptions validate prior.args args = .ok vargs → prior.Accepts vargs.spends →
      prior.requested sdk vargs.spends = .ok tx → signedBeef sdk { prior with tx } = .ok beef → HoldsSources sdk beef tx →
      SpendsValid sdk beef tx

theorem committedBy_verified_iff {storage : Machine signerStorage W} (lawful : sdk.Lawful)
    (call : SignerCall) (state : SignerWallet × W) :
    (∀ signed ∈ committedBy validate storage sdk call state, Verified sdk call signed) ↔ ScriptsValid sdk validate state.1 call := by
  cases call with
  | createAction vargs =>
    constructor
    · intro _
      trivial
    · intro _
      exact mem_committedBy_createAction lawful
  | signAction args =>
    constructor
    · intro verified prior vargs tx beef pending known merged accepts made built held
      have completed := completeSignedTransaction_ok.mpr ⟨accepts, tx, made, rfl⟩
      exact verified _ (mem_committedBy_signAction.mpr ⟨prior, vargs, pending, known, merged, completed⟩) beef built held
    · intro valid signed member beef built held
      obtain ⟨prior, vargs, pending, known, merged, completed⟩ := mem_committedBy_signAction.mp member
      obtain ⟨accepts, tx, made, rfl⟩ := completeSignedTransaction_ok.mp completed
      exact valid prior vargs tx beef pending known merged accepts made built held

def EachCall (validate : SignActionValidation) (storage : Machine signerStorage W) (sdk : Sdk)
    (holds : SignerCall → SignerWallet × W → Prop) : List SignerCall → SignerWallet × W → Prop
  | [], _ => True
  | call :: rest, state => holds call state ∧ EachCall validate storage sdk holds rest (afterCall validate storage sdk call state)

theorem EachCall.congr {validate storage holds other} (same : ∀ call state, holds call state ↔ other call state)
    (calls : List SignerCall) (state : SignerWallet × W) :
    EachCall validate storage sdk holds calls state ↔ EachCall validate storage sdk other calls state := by
  induction calls generalizing state with
  | nil => exact Iff.rfl
  | cons call rest ih => exact and_congr (same call state) (ih _)

def sampleSource : Transaction := ⟨1, [], [⟨1000, [0x51], false⟩], 0⟩

def sampleSdk : Sdk where
  Beef := List (String × Transaction)
  noTransactions := []
  fromBinary _ := .ok [("source", sampleSource)]
  mergeBeef beef _ := .ok (("source", sampleSource) :: beef)
  mergeTransaction beef tx := (if tx.inputs = [] then "source" else "spender", tx) :: beef
  mergeRawTx beef _ := .ok beef
  findTx beef txid := (beef.find? (·.1 = txid)).map Prod.snd
  toBinaryAtomic _ _ := .ok []
  id tx := if tx.inputs = [] then "source" else "spender"
  toBinary _ := []
  transactionFromBinary _ := .ok sampleSource
  validate spend := .ok (spend.unlockingScript = [0x51])
  lock _ _ := .ok [0x51]
  sign _ _ _ := .ok [0x51]

theorem find_first (beef : List (String × Transaction)) (txid : String) (tx : Transaction) :
    (((txid, tx) :: beef).find? (·.1 = txid)).map Prod.snd = some tx := by simp

theorem sampleSdk_lawful : sampleSdk.Lawful := ⟨fun beef tx => find_first beef (sampleSdk.id tx) tx⟩

def sampleOptions : ValidProcessActionOptions := ⟨false, false, false, []⟩

/-- An action whose input is still to be signed by the caller. -/
def sampleActionArgs : ValidCreateActionArgs where
  options := sampleOptions
  isNewTx := true
  isSendWith := false
  isNoSend := false
  isDelayed := false
  version := 1
  lockTime := 0
  inputs := [⟨⟨"source", 0⟩, 0xffffffff, none, 1⟩]
  outputs := [⟨"51", 900⟩]
  inputBEEF := some []
  isSignAction := true
  isTestWerrReviewActions := false
  includeAllSourceTransactions := false
  randomizeOutputs := false

def samplePlan : StorageCreateActionResult where
  reference := "ref"
  inputs := [⟨0, "source", 0, 1000, "51", none, 1, "custom", none, none, none⟩]
  outputs := [⟨0, 900, "51", .you, none, none⟩]
  derivationPrefix := "prefix"
  inputBeef := some []
  noSendChangeOutputVouts := none

def sampleStorage : Machine signerStorage Unit
  | .createAction _, _ => (.ok samplePlan, ())
  | .processAction _ _, _ => (.ok ⟨[], none⟩, ())

def sampleValidation : SignActionValidation := fun args =>
  .ok { options := sampleOptions, isNewTx := true, isSendWith := false, isNoSend := false, isDelayed := false, spends := args.spends }

def sampleSigned (script : Script) : PendingSignAction where
  reference := "ref"
  dcr := samplePlan
  args := sampleActionArgs
  tx := ⟨1, [⟨"source", 0, some [], some script, none, 0xffffffff⟩], [⟨900, [0x51], false⟩], 0⟩
  amount := 0
  pdi := []

def sampleSigning (script : String) : List SignerCall :=
  [.createAction sampleActionArgs, .signAction { reference := "ref", spends := [(0, ⟨script, none⟩)] }]

def samplePending : PendingSignAction := sampleSigned []

end WalletToolbox

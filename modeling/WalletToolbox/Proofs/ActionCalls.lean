import WalletToolbox.Proofs.AllocatedRows
import WalletToolbox.Provider.CreateAction

/-! The storage calls of `createAction`, stage by stage: which tables each stage writes to.
What a stage does not write to is as it was, wherever the stage ends. -/

namespace WalletToolbox
open Async StorageRocksDb StorageReaderWriter

def Writes (tables : List EntityTable) : StorageCall → Prop
  | .insert table _ | .update table _ _ => table ∈ tables
  | .find _ _ => True
  | .allocateChangeInput _ _ _ _ _ _ => .outputs ∈ tables

def Within (hash : ScriptHash) (tables : List EntityTable) (call : StorageCall) : Prop := Ordinary hash call ∧ Writes tables call

section
variable {hash : ScriptHash} {database : Database} {tables wider : List EntityTable} {α ε : Type}

theorem Within.mono (subset : tables ⊆ wider) (call) (within : Within hash tables call) : Within hash wider call := by
  refine ⟨within.1, ?_⟩
  have writes := within.2
  cases call with
  | find => trivial
  | insert | update | allocateChangeInput => exact subset writes

theorem within_find (table) (args) : Within hash tables (.find table args) := ⟨trivial, trivial⟩

theorem Within.rows {call} (within : Within hash tables call) (sound : SoundStorage database) {table} (other : table ∉ tables) :
    (callAlone hash call database).2.rows table = database.rows table := by
  obtain ⟨_, writes⟩ := within
  cases call with
  | find => rw [callAlone_find]
  | insert written row =>
    rw [(insert_rows row).2, TableRows.put_other fun (same : table = written) => other (same ▸ writes)]
  | update written key changes =>
    rw [update_rows, TableRows.change_other fun (same : table = written) => other (same ▸ writes)]
  | allocateChangeInput userId basketId targetSatoshis exactSatoshis excludeSending transactionId =>
    rcases @allocateChangeInput_after hash database transactionId userId basketId targetSatoshis exactSatoshis excludeSending sound.keyed with
      ⟨same, _⟩ | ⟨next, _, put, _⟩
    · rw [same]
    · rw [put, TableRows.put_other fun (same : table = .outputs) => other (same ▸ writes)]

structure Stage (tables : List EntityTable) (before after : Database) : Prop where
  sound : SoundStorage after
  rows : ∀ table, table ∉ tables → after.rows table = before.rows table

theorem Stage.refl (sound : SoundStorage database) : Stage tables database database := ⟨sound, fun _ _ => rfl⟩

theorem Stage.call {middle} (stage : Stage tables database middle) {call} (within : Within hash tables call) :
    Stage tables database (callAlone hash call middle).2 :=
  ⟨stage.sound.call call within.1, fun table other => (within.rows stage.sound other).trans (stage.rows table other)⟩

theorem stage_of_uses (sound : SoundStorage database) {program : Program storage ε α} (uses : program.Uses (Within hash tables)) :
    Stage tables database (program.run (callAlone hash) database).2 :=
  Program.run_preserves (callAlone hash) (fun _ _ within stage => stage.call within) uses (.refl sound)

theorem sameKeys_of_uses (sound : SoundStorage database) {program : Program storage ε α}
    (uses : program.Uses fun call => Within hash tables call ∧ AddsNone call) : SameKeys database.rows (program.run (callAlone hash) database).2.rows := by
  have step : ∀ call store, (Within hash tables call ∧ AddsNone call) → (SoundStorage store ∧ SameKeys database.rows store.rows) →
      SoundStorage (callAlone hash call store).2 ∧ SameKeys database.rows (callAlone hash call store).2.rows := by
    intro call store both held
    obtain ⟨within, none⟩ := both
    exact ⟨held.1.call call within.1, fun table key => (none.sameKeys held.1 within.1 table key).trans (held.2 table key)⟩
  exact (Program.run_preserves (callAlone hash) step uses ⟨sound, fun _ _ => rfl⟩).2

theorem uses_await {allowed : StorageCall → Prop} {call} (permitted : allowed call) : call.await.Uses allowed :=
  ⟨permitted, fun _ => Program.Uses.ofExcept _⟩

theorem uses_verifyOneOrNone (results : List α) : (verifyOneOrNone results : StorageM _).Uses allowed := by
  unfold verifyOneOrNone
  split <;> trivial

theorem uses_verifyOne (results : List α) : (verifyOne results : StorageM _).Uses allowed := by
  unfold verifyOne
  split <;> trivial

theorem uses_verifyId (id : Nat) : (verifyId id : StorageM _).Uses allowed := by
  unfold verifyId
  split <;> trivial

theorem uses_retryOnce (uses : attempt.Uses allowed) : (retryOnce attempt).Uses allowed :=
  uses.handle fun _ => uses

theorem uses_lookup {args : FindArgs table} {next : Option (Row table) → StorageM α}
    (rest : ∀ found, (next found).Uses (Within hash tables)) :
    ((StorageCall.find table args).await >>= fun results => verifyOneOrNone results >>= next).Uses (Within hash tables) :=
  (uses_await (within_find table args)).bind fun results => (uses_verifyOneOrNone results).bind rest

theorem uses_found {allowed : StorageCall → Prop} (finds : ∀ table args, allowed (.find table args)) {program : Program storage ε α}
    (uses : program.Uses (Within hash [])) : program.Uses allowed := by
  refine uses.mono fun call within => ?_
  have writes := within.2
  cases call with
  | find table args => exact finds table args
  | insert | update | allocateChangeInput => cases writes

theorem uses_lift (uses : program.Uses allowed) : (CreateAction.ActionM.lift program).Uses allowed :=
  uses.handle fun _ => trivial

/-- What is looked up beside the tables: counts, and Beefs, with proofs that the services have. -/
structure LooksUp (hash : ScriptHash) (storage : CreateAction.ActionStorage) : Prop where
  counts : ∀ userId basketId excludeSending, (storage.countChangeInputs userId basketId excludeSending).Uses (Within hash [])
  beefs : ∀ beef txid, (storage.getBeefForTransaction beef txid).Uses (Within hash [.provenTxs])

end

namespace CreateAction
variable {hash : ScriptHash} {tables : List EntityTable} {storage : ActionStorage}

theorem getProvenOrRawTx_uses (txid : String) : (getProvenOrRawTx txid).Uses (Within hash tables) := by
  unfold getProvenOrRawTx
  refine uses_lookup fun proven => ?_
  cases proven with
  | some proven => trivial
  | none =>
    refine uses_lookup fun req => ?_
    cases req with
    | none => trivial
    | some req => trivial

theorem verifyKnownValidTransaction_uses (txid : String) : (verifyKnownValidTransaction txid).Uses (Within hash tables) :=
  (getProvenOrRawTx_uses txid).bind fun _ => trivial

theorem validateBeefTxidOnlyEntries_uses (inputTxids) (trustSelf : Bool) (txs) :
    (validateBeefTxidOnlyEntries inputTxids trustSelf txs).Uses (Within hash tables) := by
  induction txs with
  | nil => trivial
  | cons tx rest ih =>
    obtain ⟨txid, isTxidOnly⟩ := tx
    unfold validateBeefTxidOnlyEntries
    dsimp only
    split
    · split
      · trivial
      · split
        · refine (verifyKnownValidTransaction_uses txid).bind fun known => ?_
          split
          · exact ih
          · trivial
        · exact ih
    · exact ih

theorem ensureBeefContainsAllInputTxids_uses (trustSelf : Bool) (txids) (beef : storage.Beef) :
    (ensureBeefContainsAllInputTxids storage trustSelf txids beef).Uses (Within hash tables) := by
  induction txids generalizing beef with
  | nil => trivial
  | cons txid rest ih =>
    unfold ensureBeefContainsAllInputTxids
    cases findTxid storage beef txid with
    | some _ => exact ih beef
    | none =>
      have goesOn (known : Bool) : (if known then ensureBeefContainsAllInputTxids storage trustSelf rest (storage.mergeTxidOnly beef txid)
          else throw (.invalidParameter "inputBEEF" ("valid and contain proof data for possibly known " ++ txid)) : StorageM storage.Beef).Uses
          (Within hash tables) := by
        split
        · exact ih _
        · trivial
      dsimp only
      split
      · exact (verifyKnownValidTransaction_uses txid).bind goesOn
      · exact goesOn false

theorem findOutputByOutpoint_uses (userId : Nat) (outpoint : Outpoint) : (findOutputByOutpoint userId outpoint).Uses (Within hash tables) :=
  (uses_await (within_find .outputs _)).bind fun results => uses_verifyOneOrNone results

theorem findOutputsByOutpoints_uses (userId : Nat) (outpoints) : (findOutputsByOutpoints userId outpoints).Uses (Within hash tables) := by
  induction outpoints with
  | nil => trivial
  | cons outpoint rest ih => exact (findOutputByOutpoint_uses userId outpoint).bind fun _ => ih.bind fun _ => trivial

theorem mergeSource_uses (beef : storage.Beef) (txid : String) : (mergeSource storage beef txid).Uses (Within hash tables) := by
  refine (getProvenOrRawTx_uses txid).bind fun found => ?_
  cases found.rawTx with
  | none => trivial
  | some rawTx =>
    refine (Program.Uses.ofExcept _).bind fun merged => ?_
    cases found.proven with
    | none => trivial
    | some proven => exact Program.Uses.ofExcept _

theorem sourceOutput_uses (input : ValidCreateActionInput) (vin : Nat) (beef : storage.Beef) :
    (match (storage.outputs beef input.outpoint.txid)[input.outpoint.vout]? with
      | none => throw (.invalidParameter (outpointName input.outpoint) "valid outpoint")
      | some (satoshis, lockingScript) => do
        .ofExcept (validateChangeSatoshis satoshis "so.satoshis" 0)
        return ({ input with vin, lockingScript, satoshis, output := none }, beef) : StorageM (XValidCreateActionInput × storage.Beef)).Uses
        (Within hash tables) := by
  cases (storage.outputs beef input.outpoint.txid)[input.outpoint.vout]? with
  | none => trivial
  | some source => exact (Program.Uses.ofExcept _).bind fun _ => trivial

theorem resolveBeefInput_uses (beef : storage.Beef) (input) (vin : Nat) :
    (resolveBeefInput storage beef input vin).Uses (Within hash tables) := by
  unfold resolveBeefInput
  dsimp only
  split
  · exact (mergeSource_uses beef _).bind (sourceOutput_uses input vin)
  · exact sourceOutput_uses input vin beef

theorem resolveOneMore_uses (userId : Nat) (vargs : ValidCreateActionArgs) (input : ValidCreateActionInput) (vin : Nat) {rest} (beef : storage.Beef)
    (others : ∀ beef, (resolveInputScripts storage userId vargs rest beef).Uses (Within hash tables)) (output : Option TableOutput) : (do
        let (resolved, beef) ← match output with
          | some output => do pure (← .ofExcept (resolveStoredInput storage vargs input vin output), beef)
          | none => resolveBeefInput storage beef input vin
        let (others, beef) ← resolveInputScripts storage userId vargs rest beef
        return (resolved :: others, beef) : StorageM (List XValidCreateActionInput × storage.Beef)).Uses (Within hash tables) := by
  cases output with
  | some output => exact (Program.Uses.ofExcept _).bind fun _ => (others beef).bind fun _ => trivial
  | none => exact (resolveBeefInput_uses beef input vin).bind fun resolved => (others resolved.2).bind fun _ => trivial

theorem resolveInputScripts_uses (userId : Nat) (vargs) (inputs)
    (beef : storage.Beef) : (resolveInputScripts storage userId vargs inputs beef).Uses (Within hash tables) := by
  induction inputs generalizing beef with
  | nil => trivial
  | cons first rest ih =>
    obtain ⟨⟨input, preloaded⟩, vin⟩ := first
    have goesOn := resolveOneMore_uses userId vargs input vin beef ih
    unfold resolveInputScripts
    cases preloaded with
    | some output => exact goesOn (some output)
    | none => exact (findOutputByOutpoint_uses userId input.outpoint).bind goesOn

theorem requireInputs_uses (userId : Nat) (vargs : ValidCreateActionArgs) (beef : storage.Beef) : (do
        let inputTxids := (vargs.inputs.map (·.outpoint.txid)).eraseDups
        validateBeefTxidOnlyEntries inputTxids vargs.trustSelf (storage.txs beef)
        let storageBeef ← ensureBeefContainsAllInputTxids storage vargs.trustSelf inputTxids beef
        if ← .ofExcept (storage.verify storageBeef) then
          let preloaded ← findOutputsByOutpoints userId (vargs.inputs.map (·.outpoint))
          let (xinputs, beef) ← resolveInputScripts storage userId vargs ((vargs.inputs.zip (preloaded.map Prod.snd)).zipIdx) storageBeef
          return ⟨storageBeef, beef, xinputs⟩
        else throw (.invalidParameter "inputBEEF" "valid Beef when factoring options.trustSelf") : StorageM (RequiredInputs storage)).Uses
        (Within hash tables) := by
  refine (validateBeefTxidOnlyEntries_uses _ _ _).bind fun _ => ?_
  refine (ensureBeefContainsAllInputTxids_uses _ _ beef).bind fun storageBeef => ?_
  refine (Program.Uses.ofExcept _).bind fun verified => ?_
  split
  · refine (findOutputsByOutpoints_uses userId _).bind fun preloaded => ?_
    exact (resolveInputScripts_uses userId vargs _ storageBeef).bind fun _ => trivial
  · trivial

theorem validateRequiredInputs_uses (userId : Nat) (vargs) : (validateRequiredInputs storage userId vargs).Uses (Within hash tables) := by
  unfold validateRequiredInputs
  split
  · trivial
  · cases vargs.inputBEEF with
    | some inputBEEF => exact (Program.Uses.ofExcept _).bind (requireInputs_uses userId vargs)
    | none => exact requireInputs_uses userId vargs storage.empty

theorem findNoSendChange_uses (userId : Nat) (changeBasket : TableOutputBasket) (outpoints) (r) :
    (findNoSendChange userId changeBasket outpoints r).Uses (Within hash tables) := by
  induction outpoints generalizing r with
  | nil => trivial
  | cons outpoint rest ih =>
    unfold findNoSendChange
    refine (findOutputByOutpoint_uses userId outpoint).bind fun output => ?_
    cases output with
    | none => trivial
    | some output =>
      dsimp only
      split
      · trivial
      · split
        · trivial
        · exact ih _

def attemptRestored (table : EntityTable) (wanted : FindArgs table) (fresh : Row table) (isDeleted : Row table → Bool)
    (restore : Row table → StorageM Unit) : StorageM (Row table) := do
  let found ← verifyOneOrNone (← (StorageCall.find table wanted).await)
  let row ← foundOrInserted fresh found
  if isDeleted row then
    restore row
    return row
  else return row

section
variable {allowed : StorageCall → Prop} {table : EntityTable} {wanted : FindArgs table} {fresh : Row table}

theorem attemptRestored_uses (finds : ∀ table args, allowed (.find table args)) (inserts : allowed (.insert table fresh)) (isDeleted : Row table → Bool) (restores : ∀ row, (restore row).Uses allowed) :
    (attemptRestored table wanted fresh isDeleted restore).Uses allowed := by
  refine (uses_await (finds table wanted)).bind fun results => (uses_verifyOneOrNone results).bind fun found => ?_
  refine Program.Uses.bind ?_ fun row => ?_
  · cases found with
    | some row => trivial
    | none => exact uses_await inserts
  · split
    · exact (restores row).bind fun _ => trivial
    · trivial

theorem findOrInsertRestored_uses (finds : ∀ table args, allowed (.find table args)) (inserts : allowed (.insert table fresh)) (isDeleted : Row table → Bool) (restores : ∀ row, (restore row).Uses allowed) :
    (findOrInsertRestored table wanted fresh isDeleted restore).Uses allowed :=
  uses_retryOnce (attemptRestored_uses finds inserts isDeleted restores)

end

theorem addLabels_uses (labels : .txLabels ∈ tables) (maps : .txLabelsMap ∈ tables) (userId transactionId : Nat) (names) :
    (addLabels userId transactionId names).Uses (Within hash tables) := by
  induction names with
  | nil => trivial
  | cons label rest ih =>
    have newLabel : Within hash tables (.insert .txLabels (newTxLabel userId label)) :=
      ⟨fun id same => (Option.some.inj same).symm, labels⟩
    have newMap (transactionId txLabelId : Nat) : Within hash tables (.insert .txLabelsMap ⟨txLabelId, transactionId, false⟩) :=
      ⟨fun id same => (by cases same), maps⟩
    have label : (findOrInsertTxLabel userId label).Uses (Within hash tables) :=
      findOrInsertRestored_uses within_find newLabel _ fun row =>
        (uses_verifyId _).bind fun _ => (uses_await ⟨fun _ => rfl, labels⟩).bind fun _ => trivial
    have map (transactionId txLabelId : Nat) : (findOrInsertTxLabelMap transactionId txLabelId).Uses (Within hash tables) :=
      findOrInsertRestored_uses within_find (newMap transactionId txLabelId) _ fun row => (uses_await ⟨fun _ => rfl, maps⟩).bind fun _ => trivial
    exact label.bind fun _ => (uses_verifyId _).bind fun _ => (uses_verifyId _).bind fun _ => (map _ _).bind fun _ => ih

def recordTables : List EntityTable := [.transactions, .txLabels, .txLabelsMap]

theorem startAction_uses (looks : LooksUp hash storage) (userId : Nat) (vargs : ValidCreateActionArgs) :
    (startAction storage userId vargs).Uses (Within hash recordTables) := by
  refine (validateRequiredInputs_uses userId vargs).bind fun required => ?_
  refine (uses_await (within_find .outputBaskets _)).bind fun baskets => (uses_verifyOne baskets).bind fun changeBasket => ?_
  refine Program.Uses.bind ?_ fun noSendChangeIn => ?_
  · unfold validateNoSendChange
    split
    · trivial
    · exact findNoSendChange_uses userId changeBasket _ _
  · refine ((looks.counts _ _ _).mono fun call within => within.mono (List.nil_subset _) call).bind fun availableChangeCount => ?_
    refine (Program.Uses.ofExcept _).bind fun _ => Program.Uses.bind ?_ fun _ => trivial
    refine Program.Uses.bind (uses_await ⟨fun id same => (Option.some.inj same).symm, (show .transactions ∈ recordTables by decide)⟩) fun newTx => ?_
    exact (addLabels_uses (by decide) (by decide) userId _ _).bind fun _ => trivial

inductive FundingCall (transactionId : Nat) : StorageCall → Prop
  | take (outputId : Nat) : FundingCall transactionId (.update .outputs outputId { spendable := some false, spentBy := some (some transactionId) })
  | allocate (userId basketId : Nat) (targetSatoshis : Int) (exactSatoshis : Option Int) (excludeSending : Bool) :
      FundingCall transactionId (.allocateChangeInput userId basketId targetSatoshis exactSatoshis excludeSending transactionId)
  | release (outputId : Nat) : FundingCall transactionId (.update .outputs outputId { spendable := some true, spentBy := some none })

theorem FundingCall.within (funding : FundingCall transactionId call) : Within hash [.outputs] call := by
  cases funding with
  | take outputId => exact ⟨fun _ => rfl, List.mem_singleton_self _⟩
  | allocate => exact ⟨trivial, List.mem_singleton_self _⟩
  | release outputId => exact ⟨fun _ => rfl, List.mem_singleton_self _⟩

theorem FundingCall.addsNone (funding : FundingCall transactionId call) : AddsNone call := by
  cases funding <;> trivial

theorem allocateChangeInput_uses (userId : Nat) (vargs) (ctx) (targetSatoshis : Int)
    (exactSatoshis) (holding) :
    (allocateChangeInput userId vargs ctx targetSatoshis exactSatoshis holding).Uses (FundingCall ctx.transactionId) := by
  unfold allocateChangeInput
  split
  · exact (uses_await (.take _)).bind fun _ => trivial
  · refine (uses_await (.allocate ..)).bind fun output => ?_
    cases output with
    | none => trivial
    | some output => trivial

theorem releaseChangeInput_uses (ctx) (outputId : Nat) (holding) :
    (releaseChangeInput ctx outputId holding).Uses (FundingCall ctx.transactionId) := by
  unfold releaseChangeInput
  split
  · trivial
  · exact (uses_await (.release outputId)).bind fun _ => trivial

theorem generateChange_uses (userId : Nat) (vargs) (ctx) (program : ChangeM α)
    (holding : ChangeHolding) : (generateChange userId vargs ctx program holding).Uses (FundingCall ctx.transactionId) := by
  induction program generalizing holding with
  | done value => trivial
  | fail failure =>
    cases failure with
    | thrown error => trivial
    | unfinished => trivial
  | await op next ih =>
    cases op with
    | allocate targetSatoshis exactSatoshis =>
      unfold generateChange
      refine (allocateChangeInput_uses userId vargs ctx targetSatoshis exactSatoshis holding).settle.bind fun outcome => ?_
      cases outcome with
      | ok reply => exact ih _ _
      | error error => exact ih _ _
    | release outputId =>
      unfold generateChange
      refine (releaseChangeInput_uses ctx outputId holding).settle.bind fun outcome => ?_
      cases outcome with
      | ok after => exact ih _ _
      | error error => exact ih _ _

theorem fundNewTransactionSdk_uses (userId : Nat) (vargs) (ctx : CreateTransactionSdkContext) :
    (fundNewTransactionSdk storage userId vargs ctx).Uses (FundingCall ctx.transactionId) :=
  (generateChange_uses userId vargs ctx _ _).bind fun _ => trivial

theorem mergeAllocatedChangeBeefs_uses (looks : LooksUp hash storage) (vargs) (allocatedChange)
    (beef : storage.Beef) : (mergeAllocatedChangeBeefs storage vargs allocatedChange beef).Uses (Within hash [.provenTxs]) := by
  have merges : (mergeEachChangeBeef storage vargs allocatedChange beef).Uses (Within hash [.provenTxs]) := by
    induction allocatedChange generalizing beef with
    | nil => trivial
    | cons o rest ih =>
      unfold mergeEachChangeBeef
      dsimp only
      split
      · exact (looks.beefs beef _).bind ih
      · exact ih beef
  unfold mergeAllocatedChangeBeefs
  split
  · trivial
  · exact merges.bind fun _ => trivial

theorem findOutputsByIds_uses (outputIds) : (findOutputsByIds outputIds).Uses (Within noHash []) := by
  induction outputIds with
  | nil => trivial
  | cons outputId rest ih => exact uses_lookup fun _ => ih.bind fun _ => trivial

theorem spendingTxid_uses (o2 : TableOutput) : (spendingTxid o2).Uses (Within noHash []) := by
  unfold spendingTxid
  split
  · trivial
  · refine (uses_verifyId _).bind fun spentBy => Program.Uses.bind ?_ fun _ => trivial
    exact (uses_await (within_find .transactions _)).bind fun results => uses_verifyOneOrNone results

def markUpdate (transactionId : Nat) (inputDescription : String) : OutputUpdate :=
  { spendable := some false, spentBy := some (some transactionId), spendingDescription := some (some inputDescription) }

theorem markEachKnownInput_uses {allowed : StorageCall → Prop} (finds : ∀ table args, allowed (.find table args))
    (marks : ∀ outputId transactionId inputDescription, allowed (.update .outputs outputId (markUpdate transactionId inputDescription)))
    (transactionId : Nat) (knownOutputs) (rows) :
    (markEachKnownInput transactionId knownOutputs rows).Uses allowed := by
  induction rows with
  | nil => trivial
  | cons row rest ih =>
    obtain ⟨i, o⟩ := row
    unfold markEachKnownInput
    refine (uses_verifyId _).bind fun outputId => ?_
    cases knownOutputs.find? (·.outputId = outputId) with
    | none => trivial
    | some o2 =>
      refine (uses_found finds (spendingTxid_uses o2)).bind fun competing => ?_
      cases competing with
      | some txid => trivial
      | none =>
        dsimp only
        split
        · trivial
        · exact (uses_await (marks outputId transactionId i.inputDescription)).bind fun _ => ih

theorem markKnownInputsSpent_uses (finds : ∀ table args, allowed (.find table args))
    (marks : ∀ outputId transactionId inputDescription, allowed (.update .outputs outputId (markUpdate transactionId inputDescription)))
    (transactionId : Nat) (rows) : (markKnownInputsSpent transactionId rows).Uses allowed :=
  (Program.Uses.ofExcept _).bind fun outputIds => (uses_found finds (findOutputsByIds_uses outputIds)).bind fun knownOutputs =>
    markEachKnownInput_uses finds marks transactionId knownOutputs rows

theorem readScript_uses (build : List UInt8 → StorageCreateTransactionSdkInput) (lockingScript : Option (List UInt8)) :
    (match lockingScript with
      | none => throw (.error "Cannot read properties of undefined")
      | some lockingScript => return build lockingScript : StorageM StorageCreateTransactionSdkInput).Uses (Within hash tables) := by
  cases lockingScript with
  | none => trivial
  | some lockingScript => trivial

theorem buildSdkInputFromOutput_uses (vargs) (vin : Nat) (i) (o) (length : Nat) :
    (buildSdkInputFromOutput vargs vin i o length).Uses (Within hash tables) := by
  unfold buildSdkInputFromOutput
  dsimp only
  split
  · exact (getProvenOrRawTx_uses _).bind fun source => readScript_uses _ o.lockingScript
  · exact readScript_uses _ o.lockingScript

theorem buildSdkInputs_uses (vargs) (inputs) (vin : Nat) :
    (buildSdkInputs vargs inputs vin).Uses (Within hash tables) := by
  induction inputs generalizing vin with
  | nil => trivial
  | cons input rest ih =>
    unfold buildSdkInputs
    cases input with
    | inl i =>
      dsimp only
      cases i.output with
      | some o => exact (buildSdkInputFromOutput_uses vargs vin (some i) o _).bind fun _ => (ih _).bind fun _ => trivial
      | none => exact (ih _).bind fun _ => trivial
    | inr o => exact (buildSdkInputFromOutput_uses vargs vin none o _).bind fun _ => (ih _).bind fun _ => trivial

def Marking (hash : ScriptHash) (call : StorageCall) : Prop :=
  Within hash [.provenTxs] call ∨ ∃ outputId transactionId inputDescription, call = .update .outputs outputId (markUpdate transactionId inputDescription)

theorem Marking.within (marking : Marking hash call) : Within hash [.outputs, .provenTxs] call := by
  rcases marking with within | ⟨outputId, transactionId, inputDescription, rfl⟩
  · exact within.mono (by simp) call
  · exact ⟨fun _ => rfl, List.mem_cons_self⟩

theorem describeMarked_uses (looks : LooksUp hash storage) (vargs : ValidCreateActionArgs) (ctx : CreateTransactionSdkContext)
    (allocatedChange : List TableOutput) (known : KnownInputs) : (match known with
      | .doubleSpend txid => do
        let _ ← ActionM.lift (storage.getBeefForTransaction storage.empty txid)
        .fail (.reviewActions txid)
      | .marked => ActionM.lift (buildSdkInputs vargs ((describeInputs ctx.xinputs).map .inl ++ allocatedChange.map .inr) 0) :
        ActionM (List StorageCreateTransactionSdkInput)).Uses (Marking hash) := by
  cases known with
  | doubleSpend txid => exact (uses_lift ((looks.beefs _ _).mono fun _ => .inl)).bind fun _ => trivial
  | marked => exact uses_lift ((buildSdkInputs_uses vargs _ 0).mono fun _ => .inl)

theorem createNewInputs_uses (looks : LooksUp hash storage) (vargs : ValidCreateActionArgs) (ctx)
    (allocatedChange) : (createNewInputs storage vargs ctx allocatedChange).Uses (Marking hash) := by
  have goesOn := describeMarked_uses looks vargs ctx allocatedChange
  unfold createNewInputs
  dsimp only
  split
  · exact goesOn .marked
  · refine (uses_lift (markKnownInputsSpent_uses (fun table args => .inl (within_find table args)) (fun _ _ _ => .inr ⟨_, _, _, rfl⟩) _ _)).bind goesOn

end CreateAction
end WalletToolbox

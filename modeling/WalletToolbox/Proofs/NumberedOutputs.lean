import WalletToolbox.Proofs.PersistedOutputs
import WalletToolbox.Proofs.ChangePlans

/-! The outputs of a new transaction, from what is asked for to what is stored: their vouts
are those below their number, each once, and each keeps its own script, satoshis and tags. -/

namespace WalletToolbox
open Async StorageRocksDb TableRows
open List (length_append length_map map_cons map_map mem_cons mem_map mem_singleton mem_singleton_self range)

namespace CreateAction

structure FixedOutput (xo : XValidCreateActionOutput) (fixed : NewOutput) : Prop where
  unnumbered : fixed.o.outputId = 0
  vout : fixed.o.vout = xo.vout
  satoshis : fixed.o.satoshis = xo.satoshis
  lockingScript : ∃ script, Hex.decode xo.lockingScript = some script ∧ fixed.o.lockingScript = some script
  tags : fixed.tags = if xo.purpose = some "service-charge" then [] else xo.tags

section
variable {hash : ScriptHash} {database : Database}

theorem asArray_ok (ok : asArray text = .ok bytes) : Hex.decode text = some bytes := by
  unfold asArray at ok
  split at ok
  · next found =>
    cases ok
    exact found
  · cases ok

theorem newFixedOutput_resolves (userId : Nat) (ctx) (txBaskets) (xo) :
    (newFixedOutput userId ctx txBaskets xo).Resolves (callAlone hash) database fun fixed _ => FixedOutput xo fixed := by
  apply Program.Resolves.bind
  refine .ofExcept fun lockingScript decoded => ?_
  have script := asArray_ok decoded
  dsimp only
  split
  · next charge =>
    split
    · exact .fail _
    · apply Program.Resolves.bind
      refine await_resolves fun _ _ => ?_
      exact .done ⟨rfl, rfl, rfl, ⟨lockingScript, script, rfl⟩, (if_pos charge).symm⟩
  · next asked =>
    apply Program.Resolves.bind
    refine .ofExcept fun basketId _ => ?_
    exact .done ⟨rfl, rfl, rfl, ⟨lockingScript, script, rfl⟩, (if_neg asked).symm⟩

theorem newFixedOutputs_resolves (userId : Nat) (ctx) (txBaskets) (xoutputs) :
    (newFixedOutputs userId ctx txBaskets xoutputs).Resolves (callAlone hash) database fun fixed _ => List.Forall₂ FixedOutput xoutputs fixed := by
  induction xoutputs generalizing database with
  | nil => exact .done .nil
  | cons xo rest ih =>
    apply Program.Resolves.bind
    refine (newFixedOutput_resolves userId ctx txBaskets xo).mono fun output _ first => ?_
    apply Program.Resolves.bind
    exact ih.mono fun outputs _ others => .done (.cons first others)

theorem newFixedOutputs_uses (userId : Nat) (ctx) (txBaskets) (xoutputs) :
    (newFixedOutputs userId ctx txBaskets xoutputs).Uses (Within hash [.commissions]) := by
  induction xoutputs with
  | nil => trivial
  | cons xo rest ih =>
    refine Program.Uses.bind ?_ fun _ => ih.bind fun _ => trivial
    refine (Program.Uses.ofExcept _).bind fun lockingScript => ?_
    dsimp only
    split
    · split
      · trivial
      · refine (uses_await ⟨fun id same => (Option.some.inj same).symm, mem_singleton_self _⟩).bind fun _ => trivial
    · exact (Program.Uses.ofExcept _).bind fun _ => trivial

theorem findOrInsertOutputBasketsBulk_uses (userId : Nat) (names) :
    (findOrInsertOutputBasketsBulk userId names).Uses (Within hash [.outputBaskets]) := by
  induction names with
  | nil => trivial
  | cons name rest ih =>
    refine Program.Uses.bind ?_ fun _ => ih.bind fun _ => trivial
    have inserts : Within hash [.outputBaskets] (.insert .outputBaskets (StorageReaderWriter.newOutputBasket userId name)) :=
      ⟨fun id same => (Option.some.inj same).symm, mem_singleton_self _⟩
    refine findOrInsertRestored_uses within_find inserts _ fun row => ?_
    exact (uses_verifyId _).bind fun _ => (uses_await ⟨fun _ => rfl, mem_singleton_self _⟩).bind fun _ => trivial

theorem findOrInsertOutputTagsBulk_resolves (sound : SoundStorage database) (userId : Nat) (names) :
    (findOrInsertOutputTagsBulk userId names).Resolves (callAlone hash) database fun tags after =>
      (∀ tag ∈ tags, KnownTag after.rows tag) ∧ TagsStage database after := by
  induction names generalizing database with
  | nil => exact .done ⟨fun _ member => (by cases member), .refl sound, kept_of_same rfl⟩
  | cons name rest ih =>
    apply Program.Resolves.bind
    refine (findOrInsertOutputTag_resolves sound userId name).mono fun tag middle first => ?_
    obtain ⟨⟨_, known⟩, stage⟩ := first
    apply Program.Resolves.bind
    refine (ih stage.stage.sound).mono fun tags after others => .done ⟨fun other member => ?_, stage.trans others.2⟩
    rcases mem_cons.mp member with rfl | inRest
    · exact known.kept others.2.kept
    · exact others.1 other inRest

structure ListedOutputs (hash : ScriptHash) (xoutputs : List XValidCreateActionOutput) (changeOutputs : List TableOutput) (stored : List NewOutput) : Prop where
  listed : ∃ fixed asked, List.Forall₂ FixedOutput xoutputs fixed ∧
    Renumbered (fixed ++ changeOutputs.map fun o => ⟨{ o with spendable := true }, []⟩) asked ∧ List.Forall₂ (StoredAs hash) asked stored
  vouts : (stored.map (·.o.vout)).Perm (range stored.length)

theorem renumbered_length (renumbered : Renumbered before after) : after.length = before.length := renumbered.length_eq.symm

theorem Renumbered.unnumbered (renumbered : Renumbered before after) (unnumbered : ∀ output ∈ before, output.o.outputId = 0) :
    ∀ output ∈ after, output.o.outputId = 0 := by
  induction renumbered with
  | nil => exact unnumbered
  | cons same _ ih =>
    intro output member
    rcases mem_cons.mp member with rfl | inRest
    · rw [same.1]
      exact unnumbered _ List.mem_cons_self
    · exact ih (fun other inside => unnumbered other (List.mem_cons_of_mem _ inside)) output inRest

theorem storedAs_vouts (same : List.Forall₂ (StoredAs hash) asked stored) :
    stored.map (·.o.vout) = asked.map (·.o.vout) := by
  induction same with
  | nil => rfl
  | cons first _ ih =>
    have vout := congrArg TableOutput.vout first.1
    obtain ⟨scriptHash, metadata⟩ := applyOutputScriptMetadata_eq hash _
    rw [metadata] at vout
    rw [map_cons, map_cons, ih, vout]

theorem fixed_vouts (made : List.Forall₂ FixedOutput xoutputs fixed) :
    fixed.map (·.o.vout) = xoutputs.map (·.vout) ∧ ∀ output ∈ fixed, output.o.outputId = 0 := by
  induction made with
  | nil => exact ⟨rfl, fun _ member => (by cases member)⟩
  | cons first _ ih =>
    refine ⟨by rw [map_cons, map_cons, first.vout, ih.1], fun output member => ?_⟩
    rcases mem_cons.mp member with rfl | inRest
    · exact first.unnumbered
    · exact ih.2 output inRest

theorem createNewOutputs_resolves {storage} (sound : SoundStorage database) (userId : Nat) (vargs)
    (ctx) (changeOutputs) (unnumbered : ∀ o ∈ changeOutputs, o.outputId = 0)
    (vouts : ctx.xoutputs.map (·.vout) ++ changeOutputs.map (·.vout) = range (ctx.xoutputs.length + changeOutputs.length)) :
    (createNewOutputs storage userId vargs ctx changeOutputs).Resolves (callAlone hash) database fun told after =>
      SoundStorage after ∧ ∃ stored txBaskets, ListedOutputs hash ctx.xoutputs changeOutputs stored ∧ OutputsAdded database.rows after.rows stored ∧
        told = ((stored.map (describeOutput txBaskets)).map Prod.snd, (stored.map (describeOutput txBaskets)).filterMap Prod.fst) := by
  apply Program.Resolves.bind
  intro txBaskets first baskets
  have baskets : Stage [.outputBaskets] database first := by
    have uses := @findOrInsertOutputBasketsBulk_uses hash userId (ctx.xoutputs.filterMap fun xo => truthyText xo.basket).eraseDups
    have stage := stage_of_uses sound uses
    rwa [baskets] at stage
  apply Program.Resolves.bind
  refine (findOrInsertOutputTagsBulk_resolves baskets.sound userId _).mono fun txTags second tags => ?_
  obtain ⟨known, tags⟩ := tags
  apply Program.Resolves.bind
  refine ((newFixedOutputs_resolves userId ctx txBaskets ctx.xoutputs).also
    (stage_of_uses tags.stage.sound (newFixedOutputs_uses userId ctx txBaskets ctx.xoutputs))).mono fun fixed third both => ?_
  obtain ⟨made, commissions⟩ := both
  apply Program.Resolves.bind
  have inTurn : (fixed ++ changeOutputs.map fun o => (⟨{ o with spendable := true }, []⟩ : NewOutput)).map (·.o.vout) =
      range (fixed ++ changeOutputs.map fun o => (⟨{ o with spendable := true }, []⟩ : NewOutput)).length := by
    rw [List.map_append, (fixed_vouts made).1, length_append, length_map, ← made.length_eq, ← vouts, map_map]
    rfl
  refine .ofExcept fun asked numbered => ?_
  have renumbered : Renumbered (fixed ++ changeOutputs.map fun o => ⟨{ o with spendable := true }, []⟩) asked ∧
      (asked.map (·.o.vout)).Perm (range (fixed ++ changeOutputs.map fun o => (⟨{ o with spendable := true }, []⟩ : NewOutput)).length) := by
    split at numbered
    · obtain ⟨renumbered, ok, kept, perm⟩ := randomizeOutputVouts_returns storage.randomVals inTurn
      cases ok.symm.trans numbered
      exact ⟨kept, perm⟩
    · cases numbered
      exact ⟨renumbered_refl _, inTurn ▸ List.Perm.refl _⟩
  obtain ⟨kept, perm⟩ := renumbered
  have new : ∀ output ∈ asked, output.o.outputId = 0 := by
    refine kept.unnumbered fun output member => ?_
    rcases List.mem_append.mp member with inFixed | inChange
    · exact (fixed_vouts made).2 output inFixed
    · obtain ⟨o, inside, rfl⟩ := mem_map.mp inChange
      exact unnumbered o inside
  apply Program.Resolves.bind
  refine (persistNewOutputs_resolves asked commissions.sound (fun tag member => ?_) new).mono fun entries after persisted => ?_
  · exact (known tag member).kept (kept_of_same (commissions.rows .outputTags (by decide)))
  · obtain ⟨⟨stored, same, rfl, added⟩, sound⟩ := persisted
    refine .done ⟨sound, stored, txBaskets, ⟨⟨fixed, asked, made, kept, same⟩, ?_⟩, ?_, rfl⟩
    · rw [storedAs_vouts same, ← same.length_eq, renumbered_length kept]
      exact perm
    · have rows (table : EntityTable) (other : table ∉ [EntityTable.outputBaskets, .outputTags, .commissions]) : third.rows table = database.rows table := by
        have apart := List.ne_and_not_mem_of_not_mem_cons other
        have more := List.ne_and_not_mem_of_not_mem_cons apart.2
        rw [commissions.rows table more.2, tags.stage.rows table fun inside => more.1 (mem_singleton.mp inside),
          baskets.rows table fun inside => apart.1 (mem_singleton.mp inside)]
      exact added.toOutputsAdded.frame (fun key => by rw [rows .outputs (by decide)]) (rows .outputTagsMap (by decide))

def recorded (o : TableOutput) : TableOutput := { o with spendable := false, spentBy := none, spendingDescription := none }

theorem recorded_same (same : recorded first = recorded second) : first.outputId = second.outputId ∧ first.vout = second.vout ∧
    first.satoshis = second.satoshis ∧ first.lockingScript = second.lockingScript := by
  have fields {α : Type} (field : TableOutput → α) : field (recorded first) = field (recorded second) := congrArg field same
  exact ⟨fields TableOutput.outputId, fields TableOutput.vout, fields TableOutput.satoshis, fields TableOutput.lockingScript⟩

structure OnlyMarked (before after : TableRows) : Prop where
  kept : TableRows.Kept .outputs recorded before after
  keys : ∀ key, after .outputs key = none ↔ before .outputs key = none
  tags : after .outputTags = before .outputTags
  maps : after .outputTagsMap = before .outputTagsMap

theorem OnlyMarked.trans (earlier : OnlyMarked first second) (later : OnlyMarked second third) : OnlyMarked first third :=
  ⟨earlier.kept.trans later.kept, fun key => (later.keys key).trans (earlier.keys key), later.tags.trans earlier.tags, later.maps.trans earlier.maps⟩

theorem onlyMarked_of_stage (stage : Stage tables before after) (outputs : .outputs ∉ tables)
    (tags : .outputTags ∉ tables) (maps : .outputTagsMap ∉ tables) : OnlyMarked before.rows after.rows :=
  ⟨kept_of_same (stage.rows _ outputs), fun key => by rw [stage.rows _ outputs], stage.rows _ tags, stage.rows _ maps⟩

theorem Marking.onlyMarked (marking : Marking hash call) (sound : SoundStorage database) :
    OnlyMarked database.rows (callAlone hash call database).2.rows := by
  have within := marking.within
  have others (table : EntityTable) := @Within.rows hash database _ _ within sound table
  rcases marking with proofs | ⟨outputId, transactionId, inputDescription, rfl⟩
  · have rows (table : EntityTable) := @Within.rows hash database _ _ proofs sound table
    exact ⟨kept_of_same (rows .outputs (by decide)), fun key => by rw [rows .outputs (by decide)], rows _ (by decide), rows _ (by decide)⟩
  · have same : AddsNone (.update .outputs outputId (markUpdate transactionId inputDescription)) := trivial
    refine ⟨?_, fun key => ?_, others _ (by decide), others _ (by decide)⟩
    · rw [update_rows]
      exact kept_change sound.owned.rows within.1 (fun _ => rfl) _
    · exact (same.sameKeys sound within.1).absent

theorem onlyMarked_of_uses {α ε : Type} (sound : SoundStorage database) {program : Program WalletToolbox.storage ε α} (uses : program.Uses (Marking hash)) :
    OnlyMarked database.rows (program.run (callAlone hash) database).2.rows := by
  have step : ∀ call store, Marking hash call → (SoundStorage store ∧ OnlyMarked database.rows store.rows) →
      SoundStorage (callAlone hash call store).2 ∧ OnlyMarked database.rows (callAlone hash call store).2.rows := by
    intro call store marking held
    exact ⟨held.1.call call marking.within.1, held.2.trans (marking.onlyMarked held.1)⟩
  have refl : OnlyMarked database.rows database.rows := ⟨kept_of_same rfl, fun _ => Iff.rfl, rfl, rfl⟩
  exact (Program.run_preserves (callAlone hash) step uses ⟨sound, refl⟩).2

def standing (rows : TableRows) (stored : NewOutput) : NewOutput := { stored with o := (rows .outputs (.id stored.o.outputId)).getD stored.o }

theorem standing_kept (marked : OnlyMarked before after)
    (here : before .outputs (.id stored.o.outputId) = some stored.o) :
    after .outputs (.id stored.o.outputId) = some (standing after stored).o ∧ recorded (standing after stored).o = recorded stored.o := by
  obtain ⟨now, found, same⟩ := marked.kept _ stored.o here
  have is : (standing after stored).o = now := by
    show (after .outputs (.id stored.o.outputId)).getD stored.o = now
    rw [found]
    rfl
  rw [is]
  exact ⟨found, same⟩

theorem OutputsAdded.marked (added : OutputsAdded before middle stored) (owned : middle.Owned)
    (marked : OnlyMarked middle after) : OutputsAdded before after (stored.map (standing after)) := by
  have ids (output : NewOutput) (member : output ∈ stored) : (standing after output).o.outputId = output.o.outputId := by
    exact (recorded_same (standing_kept marked (added.outputs output member).here).2).1
  refine ⟨fun now member => ?_, fun now member => ?_, fun key row here absent => ?_⟩
  · obtain ⟨output, inside, rfl⟩ := mem_map.mp member
    have is := added.outputs output inside
    have tagged (name : String) := @taggedAs_congr middle after output.o.outputId name marked.tags fun outputTagId => by rw [marked.maps]
    refine ⟨?_, ?_, fun name named => ?_, fun outputTagId map mapped => ?_⟩
    · rw [ids output inside]
      exact (standing_kept marked is.here).1
    · rw [(recorded_same (standing_kept marked is.here).2).2.2.1]
      exact is.worth
    · rw [ids output inside]
      exact (tagged name).mpr (is.tagged name named)
    · rw [ids output inside] at mapped ⊢
      rw [marked.maps] at mapped
      rw [marked.tags]
      exact is.only outputTagId map mapped
  · obtain ⟨output, inside, rfl⟩ := mem_map.mp member
    rw [ids output inside]
    exact added.fresh output inside
  · have some : (middle .outputs key).isSome = true := by
      by_contra none
      have gone := (marked.keys key).mpr (by simpa using none)
      rw [here] at gone
      cases gone
    obtain ⟨old, stood⟩ := Option.isSome_iff_exists.mp some
    obtain ⟨output, inside, rfl⟩ := mem_map.mp (added.only key old stood absent)
    have own : key = .id output.o.outputId := (owned .outputs key _ stood).symm
    rw [map_map]
    refine mem_map.mpr ⟨output, inside, ?_⟩
    show (after .outputs (.id output.o.outputId)).getD output.o = row
    rw [← own, here]
    rfl

def amountOf (adjustment : Option (Nat × Int)) (xo : XValidCreateActionOutput) : Int :=
  if xo.satoshis = maxPossibleSatoshis then (adjustment.map Prod.snd).getD xo.satoshis else xo.satoshis

def OneMaxPossible (xoutputs : List XValidCreateActionOutput) : Prop :=
  ∀ (i j : Nat) (xo other : XValidCreateActionOutput), xoutputs[i]? = some xo → xoutputs[j]? = some other → xo.satoshis = maxPossibleSatoshis → other.satoshis = maxPossibleSatoshis → i = j

theorem adjustOutputs_ok (one : OneMaxPossible xoutputs)
    (ok : adjustOutputs xoutputs adjustment = .ok adjusted) : adjusted = xoutputs.map fun xo => { xo with satoshis := amountOf adjustment xo } := by
  cases adjustment with
  | none =>
    cases ok
    have same : (fun xo : XValidCreateActionOutput => { xo with satoshis := amountOf none xo }) = id := by
      funext xo
      unfold amountOf
      split <;> rfl
    rw [same, List.map_id]
  | some adjustment =>
    obtain ⟨index, amount⟩ := adjustment
    unfold adjustOutputs at ok
    dsimp only at ok
    split at ok
    · cases ok
    · next output found =>
      split at ok
      · cases ok
      · next most =>
        cases ok
        have most := not_not.mp most
        apply List.ext_getElem?
        intro i
        rw [List.getElem?_map, List.getElem?_set]
        by_cases here : index = i
        · subst here
          obtain ⟨inside, _⟩ := List.getElem?_eq_some_iff.mp found
          rw [if_pos rfl, if_pos inside, found]
          unfold amountOf
          rw [Option.map_some, if_pos most]
          rfl
        · rw [if_neg here]
          cases other : xoutputs[i]? with
          | none => rfl
          | some xo =>
            have less : xo.satoshis ≠ maxPossibleSatoshis := fun asks => here (one index i output xo found other most asks)
            unfold amountOf
            rw [Option.map_some, if_neg less]

theorem requiredOutputs_vouts (storage) (vargs) :
    (validateRequiredOutputs storage vargs).map (·.vout) = range (validateRequiredOutputs storage vargs).length := by
  have asked : (vargs.outputs.zipIdx.map fun placed => requiredOutput placed.1 placed.2).map (·.vout) = range vargs.outputs.length := by
    rw [map_map]
    show vargs.outputs.zipIdx.map Prod.snd = _
    rw [List.zipIdx_map_snd, List.range_eq_range']
  unfold validateRequiredOutputs
  rw [List.map_append, asked, length_append, length_map, List.length_zipIdx]
  cases storage.commission with
  | none => exact List.append_nil _
  | some charge => exact List.range_succ.symm

theorem requiredOutputs_tags {storage vargs xo}
    (member : xo ∈ validateRequiredOutputs storage vargs) : (if xo.purpose = some "service-charge" then [] else xo.tags) = xo.tags := by
  rcases List.mem_append.mp member with asked | charged
  · obtain ⟨output, _, rfl⟩ := mem_map.mp asked
    exact if_neg nofun
  · cases taken : storage.commission with
    | none =>
      rw [taken] at charged
      cases charged
    | some charge =>
      rw [taken] at charged
      rw [mem_singleton.mp charged]
      exact if_pos rfl

structure OutputKept (adjustment : Option (Nat × Int)) (xo : XValidCreateActionOutput) (stored : NewOutput) : Prop where
  lockingScript : ∃ script, Hex.decode xo.lockingScript = some script ∧ stored.o.lockingScript = some script
  satoshis : stored.o.satoshis = amountOf adjustment xo
  tags : stored.tags = xo.tags

structure ToldOf (told : StorageCreateTransactionSdkOutput) (stored : NewOutput) : Prop where
  vout : told.vout = stored.o.vout
  satoshis : told.satoshis = stored.o.satoshis
  lockingScript : told.lockingScript = (stored.o.lockingScript.map Hex.encode).getD ""
  tags : told.tags = stored.tags

/-- The new outputs, from those that are asked for to the change: their vouts are those below
their number, and each is stored as it was asked for and as the caller is told. -/
structure NumberedOutputs (storage : ActionStorage) (vargs : ValidCreateActionArgs) (funded : FundNewTransactionSdkResult) (before after : TableRows)
    (result : StorageCreateActionResult) (stored : List NewOutput) : Prop where
  vouts : (stored.map (·.o.vout)).Perm (range stored.length)
  length : stored.length = (validateRequiredOutputs storage vargs).length + funded.changeOutputs.length
  added : OutputsAdded before after stored
  requested : ∀ (i : Nat) xo, (validateRequiredOutputs storage vargs)[i]? = some xo →
    ∃ output : NewOutput, stored[i]? = some output ∧ OutputKept funded.maxPossibleSatoshisAdjustment xo output
  change : ∀ (i : Nat) (o : TableOutput), funded.changeOutputs[i]? = some o →
    ∃ output : NewOutput, stored[(validateRequiredOutputs storage vargs).length + i]? = some output ∧ output.o.satoshis = o.satoshis ∧ output.tags = []
  told : List.Forall₂ ToldOf result.outputs stored
  changeVouts : result.noSendChangeOutputVouts = if vargs.isNoSend then some ((stored.filter fun output => isStoredChange output.o).map (·.o.vout)) else none
  adjusted : ∀ i amount, funded.maxPossibleSatoshisAdjustment = some (i, amount) →
    ∃ xo, (validateRequiredOutputs storage vargs)[i]? = some xo ∧ xo.satoshis = maxPossibleSatoshis

theorem startAction_resolves {storage} (userId : Nat) (vargs) :
    (startAction storage userId vargs).Resolves (callAlone hash) database fun start _ => start.ctx.xoutputs = validateRequiredOutputs storage vargs := by
  apply Program.Resolves.bind
  intro required _ _
  apply Program.Resolves.bind
  intro baskets _ _
  apply Program.Resolves.bind
  intro changeBasket _ _
  apply Program.Resolves.bind
  intro noSendChangeIn _ _
  apply Program.Resolves.bind
  intro availableChangeCount _ _
  apply Program.Resolves.bind
  intro _ _ _
  apply Program.Resolves.bind
  intro newTx _ _
  exact .done rfl

structure FundedOutputs (ctx : CreateTransactionSdkContext) (funded : FundNewTransactionSdkResult) : Prop where
  unnumbered : ∀ o ∈ funded.changeOutputs, o.outputId = 0
  vouts : funded.changeOutputs.map (·.vout) = List.range' ctx.xoutputs.length funded.changeOutputs.length
  one : OneMaxPossible ctx.xoutputs

theorem fundNewTransactionSdk_resolves {storage} (userId : Nat) (vargs) (ctx) :
    (fundNewTransactionSdk storage userId vargs ctx).Resolves (callAlone hash) database fun funded _ => FundedOutputs ctx funded := by
  apply Program.Resolves.bind
  intro generated after ran
  have one : OneMaxPossible ctx.xoutputs := by
    cases checked : validateGenerateChangeSdkParams (fundingParams storage.random ctx) with
    | error error =>
      have refused : generateChangeSdk (fundingParams storage.random ctx) storage.rounds = .fail (.thrown error) := by
        unfold generateChangeSdk
        rw [checked]
        rfl
      rw [refused] at ran
      cases (Prod.mk.inj ran).1
    | ok maxPossible =>
      have asks (i : Nat) (xo : XValidCreateActionOutput) (found : ctx.xoutputs[i]? = some xo) (most : xo.satoshis = maxPossibleSatoshis) : maxPossible = some i := by
        have listed : (fundingParams storage.random ctx).fixedOutputs[i]? = some ⟨xo.satoshis, xo.lockingScript.length / 2⟩ := by
          show (ctx.xoutputs.map fun xo => (⟨xo.satoshis, xo.lockingScript.length / 2⟩ : GenerateChangeSdkOutput))[i]? = _
          rw [List.getElem?_map, found]
          rfl
        exact validParams_only checked listed most
      intro i j xo other first second asksFirst asksSecond
      exact Option.some.inj ((asks i xo first asksFirst).symm.trans (asks j other second asksSecond))
  refine .done ⟨fun o member => ?_, ?_, one⟩
  · obtain ⟨change, _, rfl⟩ := mem_map.mp member
    rfl
  · dsimp only
    rw [map_map, length_map, List.length_zipIdx]
    apply List.ext_getElem (by simp)
    intro i first second
    simp [newChangeOutput]

theorem beside {related : α → β → Prop} {first : List α} {second : List β} (listed : List.Forall₂ related first second) {i : Nat} {value : α}
    (found : first[i]? = some value) : ∃ other, second[i]? = some other ∧ related value other := by
  obtain ⟨inside, rfl⟩ := List.getElem?_eq_some_iff.mp found
  have alsoInside := listed.length_eq ▸ inside
  exact ⟨second[i], List.getElem?_eq_getElem alsoInside, (List.forall₂_iff_get.mp listed).2 i inside alsoInside⟩

section
variable {xoutputs : List XValidCreateActionOutput} {changeOutputs : List TableOutput} {stored : List NewOutput}

theorem stored_of_asked {listed stored : List NewOutput} {renumbered : List NewOutput} (kept : Renumbered listed renumbered)
    (same : List.Forall₂ (StoredAs hash) renumbered stored) {i : Nat} {output : NewOutput} (found : listed[i]? = some output) :
    ∃ row, stored[i]? = some row ∧ row.tags = output.tags ∧ ∃ vout outputId scriptHash, row.o = { output.o with vout, outputId, scriptHash } := by
  obtain ⟨asked, isAsked, numbered, tags⟩ := beside kept found
  obtain ⟨row, isRow, written, rowTags⟩ := beside same isAsked
  obtain ⟨scriptHash, metadata⟩ := applyOutputScriptMetadata_eq hash asked.o
  rw [metadata, numbered] at written
  exact ⟨row, isRow, rowTags.trans tags, asked.o.vout, row.o.outputId, scriptHash, written⟩

theorem ListedOutputs.requested (listed : ListedOutputs hash xoutputs changeOutputs stored) {i : Nat} {xo : XValidCreateActionOutput} (found : xoutputs[i]? = some xo) :
    ∃ row, stored[i]? = some row ∧ (∃ script, Hex.decode xo.lockingScript = some script ∧ row.o.lockingScript = some script) ∧ row.o.satoshis = xo.satoshis ∧
      row.tags = if xo.purpose = some "service-charge" then [] else xo.tags := by
  obtain ⟨fixed, asked, made, kept, same⟩ := listed.listed
  obtain ⟨output, isFixed, is⟩ := beside made found
  have inside := (List.getElem?_eq_some_iff.mp isFixed).1
  obtain ⟨row, isRow, tags, vout, outputId, scriptHash, written⟩ := stored_of_asked kept same ((List.getElem?_append_left inside).trans isFixed)
  refine ⟨row, isRow, ?_, ?_, tags.trans is.tags⟩
  · rw [written]
    exact is.lockingScript
  · rw [written]
    exact is.satoshis

theorem ListedOutputs.change (listed : ListedOutputs hash xoutputs changeOutputs stored) {i : Nat} {o : TableOutput} (found : changeOutputs[i]? = some o) :
    ∃ row, stored[xoutputs.length + i]? = some row ∧ row.o.satoshis = o.satoshis ∧ row.tags = [] := by
  obtain ⟨fixed, asked, made, kept, same⟩ := listed.listed
  have placed : (fixed ++ changeOutputs.map fun o => (⟨{ o with spendable := true }, []⟩ : NewOutput))[xoutputs.length + i]? =
      some ⟨{ o with spendable := true }, []⟩ := by
    rw [made.length_eq, List.getElem?_append_right (Nat.le_add_right _ _), Nat.add_sub_cancel_left, List.getElem?_map, found]
    rfl
  obtain ⟨row, isRow, tags, vout, outputId, scriptHash, written⟩ := stored_of_asked kept same placed
  exact ⟨row, isRow, by rw [written], tags⟩

theorem ListedOutputs.length (listed : ListedOutputs hash xoutputs changeOutputs stored) : stored.length = xoutputs.length + changeOutputs.length := by
  obtain ⟨fixed, asked, made, kept, same⟩ := listed.listed
  rw [← same.length_eq, renumbered_length kept, length_append, length_map, made.length_eq]

end

theorem lift_resolves (resolves : program.Resolves (callAlone hash) database post) :
    (ActionM.lift program).Resolves (callAlone hash) database post := Program.Resolves.rethrow resolves ActionFailure.thrown

theorem stage_ran {program : Program WalletToolbox.storage ε α} {tables value after} (sound : SoundStorage database)
    (uses : program.Uses (Within hash tables)) (ran : program.run (callAlone hash) database = (.ok value, after)) : Stage tables database after := by
  have stage := stage_of_uses sound uses
  rwa [ran] at stage

theorem stored_toldOf (txBaskets) (stored) :
    List.Forall₂ ToldOf ((stored.map (describeOutput txBaskets)).map Prod.snd) stored := by
  induction stored with
  | nil => exact .nil
  | cons output rest ih => exact .cons ⟨rfl, rfl, rfl, rfl⟩ ih

theorem stored_changeVouts (txBaskets) (stored : List NewOutput) :
    (stored.map (describeOutput txBaskets)).filterMap Prod.fst = (stored.filter fun output => isStoredChange output.o).map (·.o.vout) := by
  induction stored with
  | nil => rfl
  | cons output rest ih =>
    rw [map_cons]
    cases change : isStoredChange output.o with
    | true =>
      have first : (describeOutput txBaskets output).1 = some output.o.vout := if_pos change
      rw [List.filterMap_cons_some first, List.filter_cons, change, ih]
      rfl
    | false =>
      have first : (describeOutput txBaskets output).1 = none := if_neg (by rw [change]; exact Bool.false_ne_true)
      rw [List.filterMap_cons_none first, List.filter_cons, change, ih]
      rfl

theorem describeOutput_recorded (same : recorded first.o = recorded second.o)
    (tags : first.tags = second.tags) : describeOutput txBaskets first = describeOutput txBaskets second := by
  have rows (output : NewOutput) : describeOutput txBaskets output = describeOutput txBaskets ⟨recorded output.o, output.tags⟩ := rfl
  rw [rows first, rows second, same, tags]

theorem finishAction_resolves {storage : ActionStorage} (looks : LooksUp hash storage) (sound : SoundStorage database) (userId : Nat) (vargs : ValidCreateActionArgs)
    (start : ActionStart storage) (funded : FundNewTransactionSdkResult) (asked : start.ctx.xoutputs = validateRequiredOutputs storage vargs)
    (funds : FundedOutputs start.ctx funded) : (finishAction storage userId vargs start funded).Resolves (callAlone hash) database fun result after =>
      ∃ stored, NumberedOutputs storage vargs funded database.rows after.rows result stored := by
  apply Program.Resolves.bind
  refine lift_resolves (.ofExcept fun adjusted ok => ?_)
  have amounts := adjustOutputs_ok funds.one ok
  dsimp only
  apply Program.Resolves.bind
  intro _ first updated
  have writes : Within hash [.transactions] (.update .transactions start.ctx.transactionId
      { satoshis := some ((funded.changeOutputs.map TableOutput.satoshis).sum - (funded.allocatedChange.map TableOutput.satoshis).sum) }) :=
    ⟨fun _ => rfl, mem_singleton_self _⟩
  have record := stage_ran sound (uses_lift (uses_await writes)) updated
  apply Program.Resolves.bind
  have length : adjusted.length = (validateRequiredOutputs storage vargs).length := by rw [amounts, length_map, asked]
  have vouts : adjusted.map (·.vout) ++ funded.changeOutputs.map (·.vout) = range (adjusted.length + funded.changeOutputs.length) := by
    have same : adjusted.map (·.vout) = start.ctx.xoutputs.map (·.vout) := by
      rw [amounts, map_map]
      rfl
    have joined := @List.range'_append_1 0 (validateRequiredOutputs storage vargs).length funded.changeOutputs.length
    rw [Nat.zero_add] at joined
    rw [same, length, funds.vouts, asked, requiredOutputs_vouts, List.range_eq_range', List.range_eq_range', joined]
  refine lift_resolves ((createNewOutputs_resolves record.sound userId vargs { start.ctx with xoutputs := adjusted } funded.changeOutputs funds.unnumbered vouts).mono
    fun told second made => ?_)
  obtain ⟨sound, stored, txBaskets, listed, added, rfl⟩ := made
  apply Program.Resolves.bind
  intro inputBeef third merged
  have beefs := stage_ran sound (uses_lift (mergeAllocatedChangeBeefs_uses looks vargs _ _)) merged
  apply Program.Resolves.bind
  intro inputs last created
  have marks := onlyMarked_of_uses beefs.sound (createNewInputs_uses looks vargs { start.ctx with xoutputs := adjusted } funded.allocatedChange)
  rw [created] at marks
  have marked := (onlyMarked_of_stage beefs (by decide) (by decide) (by decide)).trans marks
  have stands (output : NewOutput) (member : output ∈ stored) : recorded (standing last.rows output).o = recorded output.o :=
    (standing_kept marked (added.outputs output member).here).2
  have told : stored.map (describeOutput txBaskets) = (stored.map (standing last.rows)).map (describeOutput txBaskets) := by
    rw [map_map]
    exact List.map_congr_left fun output member => describeOutput_recorded (stands output member).symm rfl
  have row {i : Nat} {output : NewOutput} (found : stored[i]? = some output) : (stored.map (standing last.rows))[i]? = some (standing last.rows output) ∧
      recorded (standing last.rows output).o = recorded output.o := by
    refine ⟨by rw [List.getElem?_map, found]; rfl, stands output (List.mem_of_getElem? found)⟩
  refine .done ⟨stored.map (standing last.rows), ?_, ?_, ?_, fun i xo found => ?_, fun i o found => ?_, ?_, ?_, fun i amount adjustment => ?_⟩
  · have same : (stored.map (standing last.rows)).map (·.o.vout) = stored.map (·.o.vout) := by
      rw [map_map]
      exact List.map_congr_left fun output member => (recorded_same (stands output member)).2.1
    rw [same, length_map]
    exact listed.vouts
  · rw [length_map, listed.length, ← length]
  · refine (added.frame (fun key => ?_) ?_).marked sound.owned.rows marked
    · rw [record.rows .outputs (by decide)]
    · exact record.rows .outputTagsMap (by decide)
  · have inAdjusted : adjusted[i]? = some { xo with satoshis := amountOf funded.maxPossibleSatoshisAdjustment xo } := by
      rw [amounts, asked, List.getElem?_map, found]
      rfl
    obtain ⟨output, isOutput, script, satoshis, tags⟩ := listed.requested inAdjusted
    obtain ⟨isRow, same⟩ := row isOutput
    obtain ⟨_, _, sameSatoshis, sameScript⟩ := recorded_same same
    have asked := requiredOutputs_tags (List.mem_of_getElem? found)
    refine ⟨_, isRow, ?_, sameSatoshis.trans satoshis, tags.trans asked⟩
    rw [sameScript]
    exact script
  · obtain ⟨output, isOutput, satoshis, tags⟩ := listed.change found
    obtain ⟨isRow, same⟩ := row isOutput
    rw [← length]
    exact ⟨_, isRow, (recorded_same same).2.2.1.trans satoshis, tags⟩
  · rw [told]
    exact stored_toldOf txBaskets _
  · rw [told, stored_changeVouts]
  · rw [adjustment, asked] at ok
    unfold adjustOutputs at ok
    dsimp only at ok
    split at ok
    · cases ok
    · next xo found =>
      split at ok
      · cases ok
      · next most => exact ⟨xo, found, not_not.mp most⟩

theorem createAction_numbered {storage : ActionStorage} (looks : LooksUp hash storage) (sound : SoundStorage database) (userId : Nat)
    (vargs : ValidCreateActionArgs) : (createAction storage userId vargs).Resolves (callAlone hash) database fun result after =>
      ∃ start started funded funds stored, (ActionM.lift (startAction storage userId vargs)).run (callAlone hash) database = (.ok start, started) ∧
        (fundNewTransactionSdk storage userId vargs start.ctx).run (callAlone hash) started = (.ok funded, funds) ∧
        NumberedOutputs storage vargs funded database.rows after.rows result stored := by
  unfold createAction
  split
  · exact .fail _
  · split
    · exact .fail _
    · apply Program.Resolves.bind
      intro start started ran
      have asked := lift_resolves (@startAction_resolves hash database storage userId vargs) start started ran
      have record := stage_ran sound (uses_lift (startAction_uses looks userId vargs)) ran
      apply Program.Resolves.bind
      intro funded funds generated
      have makes := @fundNewTransactionSdk_resolves hash started storage userId vargs start.ctx funded funds generated
      have uses := @fundNewTransactionSdk_uses storage userId vargs start.ctx
      have stage := stage_ran record.sound (uses.mono fun _ => FundingCall.within) generated
      have keys := @sameKeys_of_uses hash _ _ _ _ record.sound _ (uses.mono fun _ funding => ⟨funding.within, funding.addsNone⟩)
      rw [generated] at keys
      refine (finishAction_resolves looks stage.sound userId vargs start funded asked makes).mono fun result after numbered => ?_
      obtain ⟨stored, numbered⟩ := numbered
      refine ⟨start, started, funded, funds, stored, ran, generated, { numbered with added := numbered.added.frame (fun key => ?_) ?_ }⟩
      · rw [keys.absent, record.rows .outputs (by decide)]
      · rw [stage.rows .outputTagsMap (by decide), record.rows .outputTagsMap (by decide)]

end

def plainSdk : BeefSdk where
  Beef := Unit
  empty := ()
  fromInput _ := .ok ()
  txs _ := []
  mergeTxidOnly _ _ := ()
  makeTxidOnly _ _ := ()
  mergeRawTx _ _ := .ok ()
  mergeProof _ _ := .ok ()
  verify _ := .ok true
  outputs _ _ := []
  toBinary _ := []

def firstDraw : RandomVal where
  floorOf _ := 0
  below _ some := some

def freeStorage : ActionStorage where
  toBeefSdk := plainSdk
  commission := none
  feeModel := ⟨false, fun _ => 0⟩
  countChangeInputs _ _ _ := return 0
  getBeefForTransaction beef _ := return beef
  disableDoubleSpendCheckForTest := false
  reference := "r"
  derivationPrefix := "p"
  derivationSuffix _ := "s"
  random _ := 0
  randomVals _ := firstDraw
  rounds := 20

def withDefaultBasket : Database :=
  (callAlone noHash (.insert .outputBaskets { StorageReaderWriter.defaultBasket 1 with numberOfDesiredUTXOs := 0 }) Database.empty).2

def tagged : ValidCreateActionOutput where
  lockingScript := "51"
  satoshis := 0
  outputDescription := ""
  basket := none
  customInstructions := none
  tags := ["a"]

def twoOutputs : ValidCreateActionArgs where
  description := ""
  version := 1
  lockTime := 0
  labels := []
  inputs := []
  outputs := [tagged, { tagged with lockingScript := "52", tags := [] }]
  inputBEEF := none
  isNewTx := true
  isNoSend := false
  isDelayed := false
  isSignAction := false
  isTestWerrReviewActions := false
  includeAllSourceTransactions := false
  trustSelf := false
  randomizeOutputs := true
  returnTXIDOnly := true
  noSendChange := []
  knownTxids := []

theorem empty_sound : SoundStorage Database.empty where
  owned _ _ _ stored := (by cases stored)
  keyed _ _ found := (by cases found)
  ahead _ := ⟨fun _ _ stored => (by cases stored), fun _ held => (by cases held)⟩

theorem withDefaultBasket_sound : SoundStorage withDefaultBasket :=
  empty_sound.call _ fun _ same => (Option.some.inj same).symm

theorem freeStorage_looks : LooksUp noHash freeStorage := ⟨fun _ _ _ => trivial, fun _ _ => trivial⟩

end CreateAction
end WalletToolbox

import WalletToolbox.Proofs.ActionOutputs

/-! The rows of the outputs of a new transaction, with the tags they are mapped to. Each gets
an id of its own, so that none of what was stored before is changed. -/

namespace WalletToolbox
open Async StorageRocksDb TableRows

namespace CreateAction

def TaggedAs (rows : TableRows) (outputId : Nat) (name : String) : Prop :=
  ∃ tag, rows .outputTags (.id tag.outputTagId) = some tag ∧ tag.tag = name ∧
    rows .outputTagsMap (.pair tag.outputTagId outputId) = some ⟨tag.outputTagId, outputId, false⟩

def StoredAs (hash : ScriptHash) (asked stored : NewOutput) : Prop :=
  stored.o = { applyOutputScriptMetadata hash asked.o with outputId := stored.o.outputId } ∧ stored.tags = asked.tags

structure OutputStored (before after : TableRows) (stored : NewOutput) : Prop where
  here : after .outputs (.id stored.o.outputId) = some stored.o
  worth : 0 ≤ stored.o.satoshis
  tagged : ∀ name ∈ stored.tags, TaggedAs after stored.o.outputId name
  only : ∀ outputTagId map, after .outputTagsMap (.pair outputTagId stored.o.outputId) = some map →
    before .outputTagsMap (.pair outputTagId stored.o.outputId) = some map ∨ ∃ tag, after .outputTags (.id outputTagId) = some tag ∧ tag.tag ∈ stored.tags

structure OutputsAdded (before after : TableRows) (stored : List NewOutput) : Prop where
  outputs : ∀ output ∈ stored, OutputStored before after output
  fresh : ∀ output ∈ stored, before .outputs (.id output.o.outputId) = none
  only : ∀ key row, after .outputs key = some row → before .outputs key = none → row ∈ stored.map NewOutput.o

structure Persisted (before after : TableRows) (stored : List NewOutput) : Prop extends OutputsAdded before after stored where
  kept : ∀ key row, before .outputs key = some row → after .outputs key = some row
  maps : ∀ outputTagId outputId, (∀ output ∈ stored, output.o.outputId ≠ outputId) →
    after .outputTagsMap (.pair outputTagId outputId) = before .outputTagsMap (.pair outputTagId outputId)
  others : ∀ table, table ∉ [EntityTable.outputs, .outputTagsMap] → after table = before table

section
variable {before middle after : TableRows}

theorem taggedAs_congr {outputId name} (tags : after .outputTags = before .outputTags)
    (maps : ∀ outputTagId, after .outputTagsMap (.pair outputTagId outputId) = before .outputTagsMap (.pair outputTagId outputId)) :
    TaggedAs after outputId name ↔ TaggedAs before outputId name := by
  unfold TaggedAs
  rw [tags]
  exact exists_congr fun tag => by rw [maps tag.outputTagId]

theorem OutputsAdded.frame (added : OutputsAdded middle after stored)
    (outputs : ∀ key, middle .outputs key = none ↔ before .outputs key = none) (maps : middle .outputTagsMap = before .outputTagsMap) :
    OutputsAdded before after stored where
  outputs output member := by
    have stored := added.outputs output member
    refine ⟨stored.here, stored.worth, stored.tagged, fun outputTagId map here => ?_⟩
    rw [← maps]
    exact stored.only outputTagId map here
  fresh output member := (outputs _).mp (added.fresh output member)
  only key row here absent := added.only key row here ((outputs key).mpr absent)

theorem persisted_nil : Persisted before before [] where
  outputs _ member := (by cases member)
  fresh _ member := (by cases member)
  only key row here absent := by
    rw [absent] at here
    cases here
  kept _ _ here := here
  maps _ _ _ := rfl
  others _ _ := rfl

theorem Persisted.distinct (earlier : Persisted before middle first) (later : Persisted middle after rest) (inFirst : output ∈ first) (inRest : other ∈ rest) : output.o.outputId ≠ other.o.outputId := by
  intro same
  have new := later.fresh other inRest
  rw [← same, (earlier.outputs output inFirst).here] at new
  cases new

theorem Persisted.append {first rest} (earlier : Persisted before middle first) (later : Persisted middle after rest) :
    Persisted before after (first ++ rest) where
  outputs output member := by
    have tags := later.others .outputTags (by decide)
    rcases List.mem_append.mp member with inFirst | inRest
    · have stored := earlier.outputs output inFirst
      have maps (outputTagId : Nat) := later.maps outputTagId output.o.outputId fun other inRest same => earlier.distinct later inFirst inRest same.symm
      refine ⟨later.kept _ _ stored.here, stored.worth, fun name inside => (taggedAs_congr tags maps).mpr (stored.tagged name inside), fun outputTagId map here => ?_⟩
      rw [maps] at here
      rw [tags]
      exact stored.only outputTagId map here
    · have stored := later.outputs output inRest
      refine ⟨stored.here, stored.worth, stored.tagged, fun outputTagId map here => (stored.only outputTagId map here).imp_left fun stood => ?_⟩
      rwa [earlier.maps outputTagId output.o.outputId fun other inFirst => earlier.distinct later inFirst inRest] at stood
  fresh output member := by
    rcases List.mem_append.mp member with inFirst | inRest
    · exact earlier.fresh output inFirst
    · cases found : before .outputs (.id output.o.outputId) with
      | none => rfl
      | some row =>
        have new := later.fresh output inRest
        rw [earlier.kept _ row found] at new
        cases new
  only key row here absent := by
    rw [List.map_append]
    cases found : middle .outputs key with
    | none => exact List.mem_append_right _ (later.only key row here found)
    | some stood =>
      have same := later.kept key stood found
      rw [here] at same
      exact List.mem_append_left _ (earlier.only key row (found.trans same.symm) absent)
  kept key row here := later.kept key row (earlier.kept key row here)
  maps outputTagId outputId apart := by
    rw [later.maps outputTagId outputId fun output inRest => apart output (List.mem_append_right _ inRest),
      earlier.maps outputTagId outputId fun output inFirst => apart output (List.mem_append_left _ inFirst)]
  others table other := (later.others table other).trans (earlier.others table other)

end

structure TagsMapped (names : List String) (outputId : Nat) (before after : TableRows) : Prop where
  mapped : ∀ name ∈ names, TaggedAs after outputId name
  keeps : ∀ name, TaggedAs before outputId name → TaggedAs after outputId name
  only : ∀ outputTagId map, after .outputTagsMap (.pair outputTagId outputId) = some map → before .outputTagsMap (.pair outputTagId outputId) = some map ∨
    ∃ tag, before .outputTags (.id outputTagId) = some tag ∧ tag.tag ∈ names
  maps : ∀ outputTagId other, other ≠ outputId → after .outputTagsMap (.pair outputTagId other) = before .outputTagsMap (.pair outputTagId other)
  others : ∀ table, table ≠ .outputTagsMap → after table = before table

section
variable {hash : ScriptHash} {database : Database}

theorem verifyId_resolves {id post} (holds : post id database) :
    (verifyId id : StorageM Nat).Resolves (callAlone hash) database post := by
  unfold verifyId
  split
  · exact .fail _
  · exact .done holds

/-- One tag is mapped. -/
theorem tagsMapped_put {rows tag outputId} (owned : rows.Owned) (known : KnownTag rows tag) :
    TagsMapped [tag.tag] outputId rows (rows.put .outputTagsMap ⟨tag.outputTagId, outputId, false⟩) where
  mapped name member := by
    obtain ⟨row, here, named⟩ := known
    have own := (RowKey.id.inj (owned .outputTags _ row here)).symm
    refine ⟨row, ?_, named.trans (List.mem_singleton.mp member).symm, ?_⟩
    · rw [put_other (by decide), ← own]
      exact here
    · rw [← own]
      exact @put_same rows .outputTagsMap _
  keeps name tagged := by
    obtain ⟨other, here, named, mapped⟩ := tagged
    refine ⟨other, by rw [put_other (by decide)]; exact here, named, ?_⟩
    by_cases same : other.outputTagId = tag.outputTagId
    · rw [same]
      exact @put_same rows .outputTagsMap _
    · have apart : RowKey.pair other.outputTagId outputId ≠ .pair tag.outputTagId outputId := fun keys => same (RowKey.pair.inj keys).1
      exact (@put_key rows .outputTagsMap _ _ apart).trans mapped
  only outputTagId map here := by
    rcases put_cases here with ⟨same, _⟩ | ⟨_, stood⟩
    · obtain ⟨row, is, named⟩ := known
      have same := (RowKey.pair.inj same).1
      exact .inr ⟨row, same ▸ is, named ▸ List.mem_singleton_self _⟩
    · exact .inl stood
  maps outputTagId other different := put_key fun same => different (RowKey.pair.inj same).2
  others table other := put_other other

theorem TagsMapped.trans (earlier : TagsMapped names outputId before middle)
    (later : TagsMapped more outputId middle after) : TagsMapped (names ++ more) outputId before after where
  mapped name member := by
    rcases List.mem_append.mp member with first | last
    · exact later.keeps name (earlier.mapped name first)
    · exact later.mapped name last
  keeps name tagged := later.keeps name (earlier.keeps name tagged)
  only outputTagId map here := by
    rcases later.only outputTagId map here with stood | ⟨tag, is, named⟩
    · rcases earlier.only outputTagId map stood with old | ⟨tag, is, named⟩
      · exact .inl old
      · exact .inr ⟨tag, is, List.mem_append_left _ named⟩
    · rw [earlier.others .outputTags (by decide)] at is
      exact .inr ⟨tag, is, List.mem_append_right _ named⟩
  maps outputTagId other different := (later.maps outputTagId other different).trans (earlier.maps outputTagId other different)
  others table other := (later.others table other).trans (earlier.others table other)

theorem mapTags_uses (txTags) (outputId : Nat) (names) :
    (mapTags txTags outputId names).Uses (Within hash [.outputTagsMap]) := by
  induction names generalizing outputId with
  | nil => trivial
  | cons tagName rest ih =>
    unfold mapTags
    cases txTags.find? (·.tag = tagName) with
    | none => trivial
    | some tag =>
      refine (uses_verifyId _).bind fun outputId => (uses_verifyId _).bind fun outputTagId => ?_
      have inserts : Within hash [.outputTagsMap] (.insert .outputTagsMap ⟨outputTagId, outputId, false⟩) :=
        ⟨fun id same => (by cases same), List.mem_singleton_self _⟩
      exact (uses_await inserts).bind fun _ => ih outputId

theorem mapTags_resolves (sound : SoundStorage database)
    (known : ∀ tag ∈ txTags, KnownTag database.rows tag) (names : List String) :
    (mapTags txTags outputId names).Resolves (callAlone hash) database fun _ after => TagsMapped names outputId database.rows after.rows := by
  induction names generalizing database with
  | nil => exact .done ⟨fun _ member => (by cases member), fun _ tagged => tagged, fun _ _ here => .inl here, fun _ _ _ => rfl, fun _ _ => rfl⟩
  | cons tagName rest ih =>
    unfold mapTags
    cases found : txTags.find? (·.tag = tagName) with
    | none => exact .fail _
    | some tag =>
      have named : tag.tag = tagName := by simpa using List.find?_some found
      have member := known tag (List.mem_of_find?_eq_some found)
      apply Program.Resolves.bind
      apply verifyId_resolves
      apply Program.Resolves.bind
      apply verifyId_resolves
      apply Program.Resolves.bind
      refine await_resolves fun _ _ => ?_
      have ordinary : Ordinary hash (.insert .outputTagsMap ⟨tag.outputTagId, outputId, false⟩) := fun id same => (by cases same)
      have rows := (@insert_rows hash database .outputTagsMap ⟨tag.outputTagId, outputId, false⟩).2
      have put := @tagsMapped_put database.rows tag outputId sound.owned.rows member
      rw [named] at put
      refine (ih (sound.call _ ordinary) fun other inside => ?_).mono fun _ after mapped => ?_
      · rw [rows]
        exact (known other inside).kept (kept_of_same (put_other (by decide)))
      · rw [rows] at mapped
        exact put.trans mapped

def describeOutput (txBaskets : List TableOutputBasket) (stored : NewOutput) : Option Nat × StorageCreateTransactionSdkOutput :=
  (if isStoredChange stored.o then some stored.o.vout else none, {
    vout := stored.o.vout
    satoshis := stored.o.satoshis
    lockingScript := (stored.o.lockingScript.map Hex.encode).getD ""
    providedBy := stored.o.providedBy
    purpose := if stored.o.purpose = "" then none else some stored.o.purpose
    basket := (txBaskets.find? fun basket => some basket.basketId = stored.o.basketId).map TableOutputBasket.name
    tags := stored.tags
    outputDescription := stored.o.outputDescription
    derivationSuffix := stored.o.derivationSuffix
    customInstructions := stored.o.customInstructions })

theorem persisted_put (new : rows .outputs (.id o.outputId) = none) (worth : 0 ≤ o.satoshis)
    (mapped : TagsMapped tags.eraseDups o.outputId (rows.put .outputs o) after) : Persisted rows after [⟨o, tags⟩] := by
  have outputs := mapped.others .outputs (by decide)
  refine ⟨⟨fun output member => ?_, fun output member => ?_, fun key row stands absent => ?_⟩, fun key row stood => ?_, fun outputTagId outputId apart => ?_,
    fun table other => ?_⟩
  · rw [List.mem_singleton.mp member]
    refine ⟨?_, worth, fun name inside => mapped.mapped name (List.mem_eraseDups.mpr inside), fun outputTagId map here => ?_⟩
    · rw [outputs]
      exact @put_same rows .outputs o
    · rcases mapped.only outputTagId map here with stood | ⟨tag, is, inside⟩
      · rw [put_other (by decide)] at stood
        exact .inl stood
      · rw [← mapped.others .outputTags (by decide)] at is
        exact .inr ⟨tag, is, List.mem_eraseDups.mp inside⟩
  · rw [List.mem_singleton.mp member]
    exact new
  · rw [outputs] at stands
    rcases put_cases stands with ⟨_, rfl⟩ | ⟨_, stood⟩
    · exact List.mem_singleton_self _
    · rw [absent] at stood
      cases stood
  · have different : key ≠ rowKey .outputs o := by
      rintro rfl
      rw [show rows .outputs (rowKey .outputs o) = none from new] at stood
      cases stood
    rw [outputs, put_key different, stood]
  · rw [mapped.maps outputTagId outputId (apart _ (List.mem_singleton_self _)).symm, put_other (by decide)]
  · have both := List.ne_and_not_mem_of_not_mem_cons other
    rw [mapped.others table fun same => both.2 (same ▸ List.mem_singleton_self _), put_other both.1]

theorem insertedOutput {o} (unnumbered : o.outputId = 0) :
    insertedRow hash database .outputs o = { applyOutputScriptMetadata hash o with outputId := (insertedRow hash database .outputs o).outputId } := by
  have zero : rowId .outputs (applyOutputScriptMetadata hash o) = some 0 := by
    rw [← unnumbered]
    exact congrArg some (applyOutputScriptMetadata_outputId hash o)
  show (prepared .outputs (applyOutputScriptMetadata hash o) database).1 = _
  rw [insertedRow, prepared_new zero]
  rfl

theorem persistNewOutput_resolves {txTags txBaskets newOutput} (sound : SoundStorage database)
    (known : ∀ tag ∈ txTags, KnownTag database.rows tag) (unnumbered : newOutput.o.outputId = 0) :
    (persistNewOutput txTags txBaskets newOutput).Resolves (callAlone hash) database fun entry after =>
      ∃ stored, StoredAs hash newOutput stored ∧ entry = describeOutput txBaskets stored ∧ Persisted database.rows after.rows [stored] := by
  have inserts : Ordinary hash (.insert .outputs newOutput.o) := fun id same => (Option.some.inj same).symm.trans unnumbered
  have new := @insertedRow_new hash database sound .outputs newOutput.o (congrArg some unnumbered)
  have rows := (@insert_rows hash database .outputs newOutput.o).2
  apply Program.Resolves.bind
  refine await_resolves fun o replied => ?_
  have inserted := (@insert_rows hash database .outputs newOutput.o).1 o replied
  have written := @insertedOutput hash database newOutput.o unnumbered
  rw [← inserted] at new rows written
  apply Program.Resolves.bind
  refine (mapTags_resolves (sound.call _ inserts) (fun tag member => ?_) _).mono fun _ after mapped => ?_
  · rw [rows]
    exact (known tag member).kept (kept_of_same (put_other (by decide)))
  · rw [rows] at mapped
    apply Program.Resolves.bind
    refine .ofExcept fun _ checked => .done ⟨⟨o, newOutput.tags⟩, ⟨written, rfl⟩, rfl, persisted_put new ?_ mapped⟩
    unfold validateChangeSatoshis at checked
    split at checked
    · cases checked
    · next valid => exact not_lt.mp (not_or.mp valid).1

theorem persistNewOutput_uses {txTags txBaskets newOutput} (unnumbered : newOutput.o.outputId = 0) :
    (persistNewOutput txTags txBaskets newOutput).Uses (Within hash [.outputs, .outputTagsMap]) := by
  have inserts : Within hash [.outputs, .outputTagsMap] (.insert .outputs newOutput.o) :=
    ⟨fun id same => (Option.some.inj same).symm.trans unnumbered, List.mem_cons_self⟩
  refine (uses_await inserts).bind fun o => ((mapTags_uses txTags _ _).mono fun call within => within.mono (by simp) call).bind fun _ => ?_
  exact (Program.Uses.ofExcept _).bind fun _ => trivial

theorem persistNewOutputs_resolves (newOutputs : List NewOutput) (sound : SoundStorage database)
    (known : ∀ tag ∈ txTags, KnownTag database.rows tag) (unnumbered : ∀ output ∈ newOutputs, output.o.outputId = 0) :
    (persistNewOutputs txTags txBaskets newOutputs).Resolves (callAlone hash) database fun entries after =>
      (∃ stored, List.Forall₂ (StoredAs hash) newOutputs stored ∧ entries = stored.map (describeOutput txBaskets) ∧
        Persisted database.rows after.rows stored) ∧ SoundStorage after := by
  induction newOutputs generalizing database with
  | nil => exact .done ⟨⟨[], .nil, rfl, persisted_nil⟩, sound⟩
  | cons newOutput rest ih =>
    have zero := unnumbered newOutput List.mem_cons_self
    apply Program.Resolves.bind
    refine ((persistNewOutput_resolves sound known zero).also
      (stage_of_uses sound (persistNewOutput_uses zero))).mono fun entry middle both => ?_
    obtain ⟨⟨first, stored, rfl, persisted⟩, stage⟩ := both
    apply Program.Resolves.bind
    refine (ih stage.sound (fun tag member => ?_) fun output member => unnumbered output (List.mem_cons_of_mem _ member)).mono
      fun entries after more => ?_
    · exact (known tag member).kept (kept_of_same (persisted.others .outputTags (by decide)))
    · obtain ⟨⟨others, storedOthers, rfl, persistedOthers⟩, sound⟩ := more
      exact .done ⟨⟨first :: others, .cons stored storedOthers, rfl, persisted.append persistedOthers⟩, sound⟩

end

end CreateAction
end WalletToolbox

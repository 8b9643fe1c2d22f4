import WalletToolbox.Proofs.ActionCalls

/-! The outputs of a new transaction as they are stored: their vouts are those below their
number, each once, and each keeps what was asked for under the vout that it gets. -/

namespace WalletToolbox
open Async StorageRocksDb StorageReaderWriter

namespace CreateAction

theorem shuffleVouts_perm (random : Nat → RandomVal) (cur : Nat) (vouts) : (shuffleVouts random cur vouts).Perm vouts := by
  induction cur generalizing vouts with
  | zero => exact Array.Perm.refl _
  | succ cur ih =>
    refine (ih _).trans ?_
    unfold Array.swapIfInBounds
    split
    · split
      · exact Array.swap_perm _ _
      · exact Array.Perm.refl _
    · exact Array.Perm.refl _

def Renumbered (before after : List NewOutput) : Prop :=
  List.Forall₂ (fun first second => second.o = { first.o with vout := second.o.vout } ∧ second.tags = first.tags) before after

theorem renumbered_refl (outputs) : Renumbered outputs outputs := by
  induction outputs with
  | nil => exact .nil
  | cons output rest ih => exact .cons ⟨rfl, rfl⟩ ih

theorem reassignVouts_returns {newVouts outputs vout} (inTurn : outputs.map (·.o.vout) = List.range' vout outputs.length) :
    ∃ renumbered, reassignVouts newVouts outputs vout = .ok renumbered ∧ Renumbered outputs renumbered ∧
      renumbered.map (·.o.vout) = (List.range' vout outputs.length).map fun i => newVouts[i]?.getD 0 := by
  induction outputs generalizing vout with
  | nil => exact ⟨[], rfl, .nil, rfl⟩
  | cons output rest ih =>
    obtain ⟨o, tags⟩ := output
    rw [List.map_cons, List.length_cons, List.range'_succ] at inTurn
    obtain ⟨own, others⟩ := List.cons.inj inTurn
    obtain ⟨renumbered, ok, kept, vouts⟩ := ih others
    refine ⟨⟨{ o with vout := newVouts[vout]?.getD 0 }, tags⟩ :: renumbered, ?_, .cons ⟨rfl, rfl⟩ kept, ?_⟩
    · unfold reassignVouts
      rw [if_neg (not_not.mpr own), ok]
      rfl
    · rw [List.map_cons, vouts, List.length_cons, List.range'_succ, List.map_cons]

theorem randomizeOutputVouts_returns (random : Nat → RandomVal) (inTurn : outputs.map (·.o.vout) = List.range outputs.length) :
    ∃ renumbered, randomizeOutputVouts random outputs = .ok renumbered ∧ Renumbered outputs renumbered ∧
      (renumbered.map (·.o.vout)).Perm (List.range outputs.length) := by
  obtain ⟨renumbered, ok, kept, vouts⟩ := @reassignVouts_returns (shuffleVouts random outputs.length (Array.range outputs.length)) outputs 0
    (inTurn.trans List.range_eq_range')
  have perm := (shuffleVouts_perm random outputs.length (Array.range outputs.length)).toList
  rw [Array.toList_range] at perm
  refine ⟨renumbered, ok, kept, ?_⟩
  rw [vouts, ← List.range_eq_range']
  have size : (shuffleVouts random outputs.length (Array.range outputs.length)).size = outputs.length := by
    simpa using perm.length_eq
  have listed : (List.range outputs.length).map (fun i => (shuffleVouts random outputs.length (Array.range outputs.length))[i]?.getD 0) =
      (shuffleVouts random outputs.length (Array.range outputs.length)).toList := by
    apply List.ext_getElem
    · simp [size]
    · intro i first second
      have inside : i < (shuffleVouts random outputs.length (Array.range outputs.length)).size := by simpa using second
      simp [Array.getElem?_eq_getElem inside]
  rw [listed]
  exact perm

def KnownTag (rows : TableRows) (tag : TableOutputTag) : Prop := ∃ row, rows .outputTags (.id tag.outputTagId) = some row ∧ row.tag = tag.tag

theorem KnownTag.kept (kept : TableRows.Kept .outputTags TableOutputTag.tag before after)
    (known : KnownTag before tag) : KnownTag after tag := by
  obtain ⟨row, here, named⟩ := known
  obtain ⟨now, found, same⟩ := kept _ row here
  exact ⟨now, found, same.trans named⟩

def TagCall (hash : ScriptHash) (call : StorageCall) : Prop :=
  Within hash [.outputTags] call ∧ (∀ row, call = .insert .outputTags row → row.outputTagId = 0) ∧
    ∀ key changes, call = .update .outputTags key changes → ∀ row, (changes row).tag = row.tag

section
variable {hash : ScriptHash} {database : Database}

theorem TagCall.kept (tags : TagCall hash call) (sound : SoundStorage database) :
    TableRows.Kept .outputTags TableOutputTag.tag database.rows (callAlone hash call database).2.rows := by
  obtain ⟨⟨ordinary, writes⟩, unnumbered, renames⟩ := tags
  cases call with
  | find table args =>
    rw [callAlone_find]
    exact TableRows.kept_of_same rfl
  | insert table row =>
    cases List.mem_singleton.mp writes
    rw [(insert_rows row).2]
    exact TableRows.kept_put (insertedRow_new sound (congrArg some (unnumbered row rfl)))
  | update table key changes =>
    cases List.mem_singleton.mp writes
    rw [update_rows]
    exact TableRows.kept_change sound.owned.rows ordinary (renames key changes rfl) _
  | allocateChangeInput => cases List.mem_singleton.mp writes

/-- What the tag methods leave: sound storage, other tables as they were, and tags by their names. -/
structure TagsStage (before after : Database) : Prop where
  stage : Stage [.outputTags] before after
  kept : TableRows.Kept .outputTags TableOutputTag.tag before.rows after.rows

theorem TagsStage.trans (earlier : TagsStage first second) (later : TagsStage second third) : TagsStage first third :=
  ⟨⟨later.stage.sound, fun table other => (later.stage.rows table other).trans (earlier.stage.rows table other)⟩, earlier.kept.trans later.kept⟩

theorem tagsStage_of_uses {α : Type} (sound : SoundStorage database) {program : StorageM α} (uses : program.Uses (TagCall hash)) :
    TagsStage database (program.run (callAlone hash) database).2 := by
  have step : ∀ call store, TagCall hash call → TagsStage database store → TagsStage database (callAlone hash call store).2 := by
    intro call store tags held
    have sound := held.stage.sound.call call tags.1.1
    exact held.trans ⟨⟨sound, fun table other => tags.1.rows held.stage.sound other⟩, tags.kept held.stage.sound⟩
  exact Program.run_preserves (callAlone hash) step uses ⟨.refl sound, TableRows.kept_of_same rfl⟩

theorem restoreOutputTag_uses (tag) : (restoreOutputTag tag).Uses (TagCall hash) := by
  refine (uses_verifyId _).bind fun id => (uses_await ?_).bind fun _ => trivial
  refine ⟨⟨fun _ => rfl, List.mem_singleton_self _⟩, fun row same => (by cases same), fun key changes same row => ?_⟩
  cases same
  rfl

theorem attemptOutputTag_uses (userId : Nat) (tag : String) : (attemptRestored .outputTags { tag, userId } (newOutputTag userId tag)
    TableOutputTag.isDeleted restoreOutputTag).Uses (TagCall hash) := by
  refine attemptRestored_uses (fun table args => ⟨within_find table args, fun _ same => (by cases same), fun _ _ same => (by cases same)⟩) ?_ _ restoreOutputTag_uses
  refine ⟨⟨fun id same => (Option.some.inj same).symm, List.mem_singleton_self _⟩, fun row same => ?_, fun _ _ same => (by cases same)⟩
  cases same
  rfl

theorem findOrInsertOutputTag_uses (userId : Nat) (tag : String) : (findOrInsertOutputTag userId tag).Uses (TagCall hash) :=
  uses_retryOnce (attemptOutputTag_uses userId tag)

theorem attemptOutputTag_resolves (sound : SoundStorage database) (userId : Nat) (name : String) :
    (attemptRestored .outputTags { tag := name, userId } (newOutputTag userId name)
      TableOutputTag.isDeleted restoreOutputTag).Resolves (callAlone hash) database fun tag after =>
      tag.tag = name ∧ KnownTag after.rows tag := by
  have goesOn (store : Database) (sound : SoundStorage store) (row : TableOutputTag) (named : row.tag = name) (known : KnownTag store.rows row) :
      (if row.isDeleted then restoreOutputTag row >>= fun _ => pure row else pure row : StorageM TableOutputTag).Resolves
        (callAlone hash) store fun tag after => tag.tag = name ∧ KnownTag after.rows tag := by
    split
    · apply Program.Resolves.bind
      intro _ after restored
      have stage := @tagsStage_of_uses hash _ _ sound _ (restoreOutputTag_uses row)
      rw [restored] at stage
      exact .done ⟨named, known.kept stage.kept⟩
    · exact .done ⟨named, known⟩
  apply Program.Resolves.bind
  refine find_resolves sound.owned rfl fun found is => ?_
  apply Program.Resolves.bind
  refine verifyOneOrNone_resolves (fun _ => ?_) fun row only => ?_
  · apply Program.Resolves.bind
    refine await_resolves fun row replied => ?_
    have inserted := (insert_rows (newOutputTag userId name)).1 row replied
    have named : row.tag = name := by rw [inserted]; rfl
    have ordinary : Ordinary hash (.insert .outputTags (newOutputTag userId name)) := fun id same => (Option.some.inj same).symm
    refine goesOn _ (sound.call _ ordinary) row named ⟨row, ?_, rfl⟩
    rw [(insert_rows _).2, ← inserted]
    exact @TableRows.put_same database.rows .outputTags row
  · obtain ⟨accepted, key, here, _⟩ := (is.member row).mp (only ▸ List.mem_singleton_self row)
    have named : row.tag = name := by
      simp only [matchesOutputTagPartial, Bool.and_eq_true, eq_some] at accepted
      exact accepted.1.2.symm
    have own := (sound.owned.rows _ key row here).symm
    rw [own] at here
    exact goesOn database sound row named ⟨row, here, rfl⟩

theorem findOrInsertOutputTag_resolves (sound : SoundStorage database) (userId : Nat) (name : String) :
    (findOrInsertOutputTag userId name).Resolves (callAlone hash) database fun tag after =>
      (tag.tag = name ∧ KnownTag after.rows tag) ∧ TagsStage database after := by
  refine Program.Resolves.also ?_ (tagsStage_of_uses sound (findOrInsertOutputTag_uses userId name))
  refine (attemptOutputTag_resolves sound userId name).handle fun _ after failed => ?_
  have stage := @tagsStage_of_uses hash _ _ sound _ (attemptOutputTag_uses userId name)
  rw [failed] at stage
  exact attemptOutputTag_resolves stage.stage.sound userId name

end

end CreateAction
end WalletToolbox

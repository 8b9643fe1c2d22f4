import WalletToolbox.Proofs.RebuiltIndexes
import WalletToolbox.Proofs.SequentialIndexes

/-! What a rebuild of the output indexes does to the answers of their readers. A reader
sees the outputs that index entries name and their stored rows, so records that agree in
both answer alike. A rebuild keeps them exactly when no output is filed under a
transaction status, every row has the metadata of its script, and an outpoint that
several outputs share names the last of them. -/

namespace WalletToolbox
open Effects Async RocksDbWalletStore List

def SameAnswer {α : Type} (hash : ScriptHash) (before after : Database) (program : RocksDbM α) : Prop :=
  (program.run (exec hash) after).1 = (program.run (exec hash) before).1

theorem SameAnswer.bind {α β : Type} {hash : ScriptHash} {before after : Database} {program : RocksDbM α} {next : α → RocksDbM β}
    (first : SameAnswer hash before after program) (uses : program.Uses Reads)
    (rest : ∀ value, SameAnswer hash before after (next value)) : SameAnswer hash before after (program >>= next) := by
  have kept (database : Database) : (program.run (exec hash) database).2 = database :=
    Program.run_unchanged (exec hash) uses Reads.unchanged database
  unfold SameAnswer at first ⊢
  rw [Program.run_bind, Program.run_bind]
  rcases one : program.run (exec hash) before with ⟨outcome, middle⟩
  rcases two : program.run (exec hash) after with ⟨other, last⟩
  have sameBefore : middle = before := by rw [← kept before, one]
  have sameAfter : last = after := by rw [← kept after, two]
  rw [one, two] at first
  dsimp only at first
  subst first sameBefore sameAfter
  cases other with
  | ok value => exact rest value
  | error error => rfl

theorem SameAnswer.ofExcept {hash before after} (result : Except WalletError α) :
    SameAnswer hash before after (.ofExcept result) := by
  rw [SameAnswer, Program.run_ofExcept, Program.run_ofExcept]

theorem SameAnswer.done {hash : ScriptHash} {before after : Database} (value : α) :
    SameAnswer hash before after (pure value) := rfl

structure Alike (before after : Records) : Prop where
  named : ∀ key, after.named key = before.named key
  output : ∀ outputId, after.output outputId = before.output outputId

namespace RocksDbWalletStore

theorem countByTransactionStatus_uses (userId basketId : Nat) (statuses : List TransactionStatus) :
    (countSpendableOutputsByTransactionStatus userId basketId statuses).Uses Reads := by
  induction statuses with
  | nil => trivial
  | cons status rest ih => exact (Program.Uses.ofExcept _).bind fun keyPrefix => ⟨trivial, fun entries => ih.bind fun count => trivial⟩

theorem findOutputByOutpoint_uses (userId : Nat) (txid : String) (vout : Nat) : (findOutputByOutpoint userId txid vout).Uses Reads := by
  refine (Program.Uses.ofExcept _).bind fun key => ⟨trivial, fun index => ?_⟩
  cases index with
  | none => trivial
  | some index => exact (getPrimary_uses _).bind fun output => trivial

theorem findOutputsByOutpoints_uses (userId : Nat) (outpoints : List (String × Nat)) :
    (findOutputsByOutpoints userId outpoints).Uses Reads := by
  induction outpoints with
  | nil => trivial
  | cons first rest ih => exact (findOutputByOutpoint_uses userId _ _).bind fun output => ih.bind fun byOutpoint => trivial

variable {hash : ScriptHash} {before after : Database} (alike : Alike before.records after.records)
include alike

theorem getPrimary_alike {α : Type} (outputId : Nat) (next : Option TableOutput → RocksDbM α)
    (rest : ∀ output, SameAnswer hash before after (next output)) :
    SameAnswer hash before after (getPrimary outputId >>= fun record => next (record.map Versioned.value)) := by
  unfold getPrimary
  rw [bind_assoc]
  refine (SameAnswer.ofExcept _).bind (Program.Uses.ofExcept _) fun number => ?_
  have same : (after.records.primary number).map Versioned.value = (before.records.primary number).map Versioned.value :=
    alike.output number
  show ((next ((after.records.primary number).map Versioned.value)).run (exec hash) after).1 =
    ((next ((before.records.primary number).map Versioned.value)).run (exec hash) before).1
  rw [same]
  exact rest _

theorem resolveOutputIds_alike (outputIds : List Nat) : SameAnswer hash before after (resolveOutputIds outputIds) := by
  induction outputIds with
  | nil => rfl
  | cons outputId rest ih =>
    have shape : resolveOutputIds (outputId :: rest) = (getPrimary outputId >>= fun record =>
        (fun output : Option TableOutput => resolveOutputIds rest >>= fun outputs => pure (output.toList ++ outputs))
          (record.map Versioned.value)) := by
      rw [resolveOutputIds]
      refine congrArg (getPrimary outputId >>= ·) (funext fun record => ?_)
      cases record <;> rfl
    rw [shape]
    apply getPrimary_alike alike outputId fun output => resolveOutputIds rest >>= fun outputs => pure (output.toList ++ outputs)
    intro output
    exact ih.bind (resolveOutputIds_uses rest) fun outputs => .done _

theorem scanned_alike (range : IndexRange) (next : List (IndexKey × Nat) → RocksDbM α)
    (rest : ∀ entries, SameAnswer hash before after (next entries)) :
    SameAnswer hash before after (db (.getRange range) >>= fun records =>
      next (records.map fun entry => (entry.1, entry.2.value.outputId))) := by
  have same := rangeEntries_named range alike.named
  show ((next ((rangeEntries range after.records).map fun entry => (entry.1, entry.2.value.outputId))).run (exec hash) after).1 =
    ((next ((rangeEntries range before.records).map fun entry => (entry.1, entry.2.value.outputId))).run (exec hash) before).1
  rw [same]
  exact rest _

theorem resolved_alike (range : IndexRange) (keep : TableOutput → Bool) :
    SameAnswer hash before after (db (.getRange range) >>= fun records => resolveOutputIndex records >>= fun outputs =>
      pure (outputs.filter keep)) := by
  have shape : (db (.getRange range) >>= fun records => resolveOutputIndex records >>= fun outputs => pure (outputs.filter keep)) =
      (db (.getRange range) >>= fun records =>
        (fun entries : List (IndexKey × Nat) => resolveOutputIds (entries.map Prod.snd).dedup >>= fun outputs =>
          (pure (outputs.filter keep) : RocksDbM (List TableOutput))) (records.map fun entry => (entry.1, entry.2.value.outputId))) := by
    refine congrArg (db (.getRange range) >>= ·) (funext fun records => ?_)
    dsimp only
    rw [resolveOutputIndex, map_map]
    rfl
  rw [shape]
  apply scanned_alike alike range (fun entries => resolveOutputIds (entries.map Prod.snd).dedup >>= fun outputs => pure (outputs.filter keep))
  intro entries
  exact (resolveOutputIds_alike alike _).bind (resolveOutputIds_uses _) fun outputs => .done _

theorem findOutputsByScriptHash_alike (scriptHash : String) : SameAnswer hash before after (findOutputsByScriptHash scriptHash) := by
  refine (SameAnswer.ofExcept _).bind (Program.Uses.ofExcept _) fun normalized => ?_
  exact resolved_alike alike _ fun output => output.scriptHash = some normalized

theorem findSpendableOutputs_alike (userId : Nat) (basketId : Option Nat) :
    SameAnswer hash before after (findSpendableOutputs userId basketId) := by
  refine (SameAnswer.ofExcept _).bind (Program.Uses.ofExcept _) fun user => ?_
  have ranged (keyPrefix : IndexPrefix) := @resolved_alike hash _ _ alike { keyPrefix } fun output =>
    output.userId = user && output.spendable && (basketId.isNone || output.basketId = basketId)
  cases basketId with
  | none => exact ranged _
  | some basketId => exact (SameAnswer.ofExcept _).bind (Program.Uses.ofExcept _) fun basket => ranged _

theorem findOutputsByTransactionId_alike (transactionId : Nat) :
    SameAnswer hash before after (findOutputsByTransactionId transactionId) := by
  refine (SameAnswer.ofExcept _).bind (Program.Uses.ofExcept _) fun number => ?_
  exact resolved_alike alike _ fun output => output.transactionId = number

theorem counted_alike (range : IndexRange) (next : Nat → RocksDbM α) (rest : ∀ count, SameAnswer hash before after (next count)) :
    SameAnswer hash before after (db (.getRange range) >>= fun entries => next entries.length) := by
  have shape : (db (.getRange range) >>= fun entries => next entries.length) = (db (.getRange range) >>= fun records =>
      (fun entries : List (IndexKey × Nat) => next entries.length) (records.map fun entry => (entry.1, entry.2.value.outputId))) := by
    refine congrArg (db (.getRange range) >>= ·) (funext fun records => ?_)
    dsimp only
    rw [length_map]
  rw [shape]
  exact scanned_alike alike range (fun entries => next entries.length) fun entries => rest _

theorem countSpendableOutputs_alike (userId : Nat) (basketId : Option Nat) :
    SameAnswer hash before after (countSpendableOutputs userId basketId) := by
  refine (SameAnswer.ofExcept _).bind (Program.Uses.ofExcept _) fun user => ?_
  cases basketId with
  | none => exact counted_alike alike _ pure .done
  | some basketId =>
    exact (SameAnswer.ofExcept _).bind (Program.Uses.ofExcept _) fun basket => counted_alike alike _ pure .done

theorem countByTransactionStatus_alike (userId basketId : Nat) (statuses : List TransactionStatus) :
    SameAnswer hash before after (countSpendableOutputsByTransactionStatus userId basketId statuses) := by
  induction statuses with
  | nil => rfl
  | cons status rest ih =>
    refine (SameAnswer.ofExcept _).bind (Program.Uses.ofExcept _) fun keyPrefix => ?_
    exact counted_alike alike _ (fun length => countSpendableOutputsByTransactionStatus userId basketId rest >>= fun count =>
      pure (length + count)) fun length => ih.bind (countByTransactionStatus_uses userId basketId rest) fun count => .done _

theorem findOutputByOutpoint_alike (userId : Nat) (txid : String) (vout : Nat) :
    SameAnswer hash before after (findOutputByOutpoint userId txid vout) := by
  let next : Option Nat → RocksDbM (Option TableOutput) := fun found => found.elim (pure none) fun outputId =>
    getPrimary outputId >>= fun output =>
      pure ((output.map Versioned.value).filter fun output => output.userId = userId && output.txid = some txid && output.vout = vout)
  have shape : findOutputByOutpoint userId txid vout = (Program.ofExcept (outputOutpointKey userId txid vout) >>= fun key =>
      get (.index key) >>= fun index => next (index.map fun entry : Versioned OutputIndexRecord => entry.value.outputId)) := by
    refine congrArg (Program.ofExcept (outputOutpointKey userId txid vout) >>= ·) (funext fun key => ?_)
    refine congrArg (get (.index key) >>= ·) (funext fun index => ?_)
    cases index <;> rfl
  rw [shape]
  refine (SameAnswer.ofExcept _).bind (Program.Uses.ofExcept _) fun key => ?_
  show ((next (after.records.named key)).run (exec hash) after).1 = ((next (before.records.named key)).run (exec hash) before).1
  rw [alike.named]
  cases before.records.named key with
  | none => rfl
  | some outputId =>
    exact getPrimary_alike alike outputId (fun output =>
      pure (output.filter fun output => output.userId = userId && output.txid = some txid && output.vout = vout)) fun output => .done _

theorem findOutputsByOutpoints_alike (userId : Nat) (outpoints : List (String × Nat)) :
    SameAnswer hash before after (findOutputsByOutpoints userId outpoints) := by
  induction outpoints with
  | nil => rfl
  | cons first rest ih =>
    exact (findOutputByOutpoint_alike alike userId _ _).bind (findOutputByOutpoint_uses userId _ _) fun output =>
      ih.bind (findOutputsByOutpoints_uses userId rest) fun byOutpoint => .done _

end RocksDbWalletStore

def reservable (hash : ScriptHash) (database : Database) (userId basketId : Nat) (statuses : List TransactionStatus)
    (mode : SpendableValueReservationMode) (satoshis : Int) : Set TableOutput :=
  {output | ∃ (accepts : TableOutput → Bool) (transactionId : Nat),
    ((reserveSpendableOutputByStatusAndValue userId basketId (fun candidate => pure (accepts candidate))
      transactionId mode satoshis statuses).run (exec hash) database).1 = .ok (some output)}

structure AnswersAlike (hash : ScriptHash) (before after : Database) : Prop where
  byScriptHash : ∀ scriptHash, SameAnswer hash before after (RocksDbWalletStore.findOutputsByScriptHash scriptHash)
  spendable : ∀ userId basketId, SameAnswer hash before after (RocksDbWalletStore.findSpendableOutputs userId basketId)
  count : ∀ userId basketId, SameAnswer hash before after (RocksDbWalletStore.countSpendableOutputs userId basketId)
  countByStatus : ∀ userId basketId statuses,
    SameAnswer hash before after (RocksDbWalletStore.countSpendableOutputsByTransactionStatus userId basketId statuses)
  byOutpoints : ∀ userId outpoints, SameAnswer hash before after (RocksDbWalletStore.findOutputsByOutpoints userId outpoints)
  byTransactionId : ∀ transactionId, SameAnswer hash before after (RocksDbWalletStore.findOutputsByTransactionId transactionId)
  reservable : ∀ userId basketId statuses mode satoshis,
    reservable hash after userId basketId statuses mode satoshis = reservable hash before userId basketId statuses mode satoshis

def holders (records : Records) (key : IndexKey) : Set Nat :=
  {outputId | ∃ output, records.output outputId = some output ∧ key ∈ outpointKeysOf output}

/-- What a rebuild can restore: every output has the metadata of its script, none is
filed under a transaction status, and a shared outpoint names the last of its outputs. -/
structure Rebuildable (hash : ScriptHash) (records : Records) : Prop where
  scripted : ∀ outputId output, records.output outputId = some output → applyOutputScriptMetadata hash output = output
  unfiled : ∀ outputId output, records.output outputId = some output → InStatusIndex output → records.transactionStatus output = none
  outpoints : ∀ outputId output, records.output outputId = some output → ∀ key ∈ outpointKeysOf output,
    ∀ record, records.entry key = some record → IsGreatest (holders records key) record.value.outputId

theorem output_eq_some {records : Records} :
    records.output outputId = some output ↔ ∃ version, records.primary outputId = some ⟨output, version⟩ := by
  unfold Records.output
  constructor
  · intro found
    obtain ⟨record, stored, rfl⟩ := Option.map_eq_some_iff.mp found
    exact ⟨record.version, stored⟩
  · rintro ⟨version, stored⟩
    rw [stored]
    rfl

theorem named_eq_some {records : Records} :
    records.named key = some outputId ↔ ∃ record, records.entry key = some record ∧ record.value.outputId = outputId :=
  Option.map_eq_some_iff

section
variable {hash : ScriptHash} {before after : Records} (rebuilt : Rebuilt hash before after)
include rebuilt

theorem Rebuilt.of_output {outputId : Nat} {output} (found : after.output outputId = some output) :
    ∃ old, before.output outputId = some old ∧ output = applyOutputScriptMetadata hash old := by
  rw [rebuilt.output] at found
  obtain ⟨old, stored, rfl⟩ := Option.map_eq_some_iff.mp found
  exact ⟨old, stored, rfl⟩

theorem Rebuilt.consistent (hashes : HashesToParts hash) (keyed : Keyed before)
    (encodable : ∀ outputId record, before.primary outputId = some record → Encodable record.value) : Consistent (fun _ => none) after := by
  have stored {outputId : Nat} {record : Versioned TableOutput} (found : after.primary outputId = some record) :
      ∃ old, before.primary outputId = some old ∧ record.value = applyOutputScriptMetadata hash old.value := by
    obtain ⟨output, held, same⟩ := rebuilt.of_output (output_eq_some.mpr ⟨record.version, found⟩)
    obtain ⟨version, held⟩ := output_eq_some.mp held
    exact ⟨_, held, same⟩
  constructor
  · intro outputId record found
    obtain ⟨old, held, same⟩ := stored found
    rw [same, applyOutputScriptMetadata_outputId]
    exact keyed outputId old held
  · intro outputId record found
    obtain ⟨old, held, same⟩ := stored found
    rw [same]
    exact encodable_metadata hashes (encodable outputId old held)
  · intro key record found owner owns
    obtain ⟨⟨output, held, member⟩, -⟩ := rebuilt.named key record.value.outputId (named_eq_some.mpr ⟨record, found, rfl⟩)
    obtain ⟨version, held⟩ := output_eq_some.mp held
    have own := keysOf_owned owns member
    rw [applyOutputScriptMetadata_outputId] at own
    exact own.trans (keyed _ _ held)
  · intro key
    constructor
    · intro present
      obtain ⟨record, found⟩ := Option.isSome_iff_exists.mp present
      obtain ⟨⟨output, held, member⟩, -⟩ := rebuilt.named key record.value.outputId (named_eq_some.mpr ⟨record, found, rfl⟩)
      have put : after.output record.value.outputId = some (applyOutputScriptMetadata hash output) := by
        rw [rebuilt.output, held]
        rfl
      obtain ⟨version, put⟩ := output_eq_some.mp put
      exact ⟨_, _, put, member⟩
    · rintro ⟨outputId, record, found, member⟩
      obtain ⟨old, held, same⟩ := stored found
      by_contra absent
      have unnamed : after.named key = none := by
        rw [Records.named, Option.not_isSome_iff_eq_none.mp absent]
        rfl
      rw [same] at member
      exact rebuilt.unnamed key unnamed outputId old.value (output_eq_some.mpr ⟨old.version, held⟩) member

/-- Where the rebuild can restore everything, it does. -/
theorem Rebuilt.alike (indexed : Indexed before) (rebuildable : Rebuildable hash before) : Alike before after := by
  have keys {outputId : Nat} {output : TableOutput} (found : before.output outputId = some output) :
      rebuiltKeys hash output = keysOf output (before.transactionStatus output) := by
    rw [rebuiltKeys, rebuildable.scripted outputId output found]
    exact keysOf_congr fun inIndex => (rebuildable.unfiled outputId output found inIndex).symm
  constructor
  · intro key
    cases found : after.named key with
    | none =>
      have absent : before.entry key = none := by
        by_contra present
        obtain ⟨outputId, record, held, member⟩ := (indexed.consistent.exact key).mp (Option.isSome_iff_ne_none.mpr present)
        have stored := output_eq_some.mpr ⟨record.version, held⟩
        exact rebuilt.unnamed key found outputId record.value stored (keys stored ▸ member)
      rw [Records.named, absent]
      rfl
    | some outputId =>
      obtain ⟨⟨output, held, member⟩, greatest⟩ := rebuilt.named key outputId found
      rw [keys held] at member
      obtain ⟨version, stored⟩ := output_eq_some.mp held
      obtain ⟨record, entry⟩ := Option.isSome_iff_exists.mp ((indexed.consistent.exact key).mpr ⟨outputId, _, stored, member⟩)
      refine (named_eq_some.mpr ⟨record, entry, ?_⟩).symm
      cases owns : key.owner with
      | some owner =>
        have own := indexed.consistent.owned key record entry owner owns
        rw [← own, keysOf_owned owns member]
        exact indexed.consistent.keyed _ _ stored
      | none =>
        have outpoint := (mem_keysOf_unowned owns).mp member
        have last := rebuildable.outpoints outputId output held key outpoint record entry
        refine last.unique ⟨⟨output, held, outpoint⟩, ?_⟩
        rintro other ⟨shares, found, shared⟩
        apply greatest
        refine ⟨shares, found, ?_⟩
        rw [keys found]
        exact outpointKeysOf_subset shared
  · intro outputId
    rw [rebuilt.output]
    cases found : before.output outputId with
    | none => rfl
    | some output => exact congrArg some (rebuildable.scripted outputId output found)

end

theorem not_reserved {hash : ScriptHash}
    (indexes : FiledIndexes filed database.records)
    (unfiled : ∀ outputId output, database.records.output outputId = some output → InStatusIndex output → filed outputId = none)
    (userId basketId : Nat) (statuses : List TransactionStatus) (mode : SpendableValueReservationMode) (satoshis : Int) :
    reservable hash database userId basketId statuses mode satoshis = ∅ := by
  refine Set.eq_empty_iff_forall_notMem.mpr ?_
  rintro output ⟨accepts, transactionId, returned⟩
  have reserves := @reserveByStatusAndValue_reserves hash database userId basketId transactionId
    (fun candidate => pure (accepts candidate)) filed indexes (fun _ => trivial) mode satoshis statuses
  rcases reserves with ⟨-, nothing⟩ | ⟨reservation, primary, found, ⟨eligible, filedAs, isFiled⟩, -, -⟩
  · exact nothing output returned
  · have stored := output_eq_some.mpr ⟨primary.version, found⟩
    have inIndex : InStatusIndex primary.value := ⟨eligible.spendable, by rw [eligible.basket]; rfl⟩
    rw [← filedAs, indexes.keyed _ _ found, unfiled _ _ stored inIndex] at isFiled
    cases isFiled

namespace RocksDbWalletStore

section
variable {hash : ScriptHash} {database : Database} {userId vout : Nat} {txid : String}

theorem findOutputByOutpoint_run {key} (built : outputOutpointKey userId txid vout = .ok key) :
    (findOutputByOutpoint userId txid vout).run (exec hash) database =
      match database.records.named key with
      | none => (.ok none, database)
      | some outputId => match padNumber outputId with
        | .error error => (.error error, database)
        | .ok _ => (.ok ((database.records.output outputId).filter fun output =>
            output.userId = userId && output.txid = some txid && output.vout = vout), database) := by
  unfold findOutputByOutpoint Records.named
  rw [built, Program.ofExcept_ok_bind]
  cases entry : database.records.entry key with
  | none => simp [get, db, exec, entry]
  | some record =>
    cases padded : padNumber record.value.outputId with
    | error error => simp [get, db, exec, entry, getPrimary, padded]
    | ok number =>
      have same := padNumber_natCast padded
      subst same
      simp [get, db, exec, entry, getPrimary, padded, Records.output]

theorem named_of_findOutputsByOutpoints
    (found : ((findOutputsByOutpoints userId [(txid, vout)]).run (exec hash) database).1 = .ok [(name, output)]) :
    ∃ key outputId, outputOutpointKey userId txid vout = .ok key ∧ database.records.named key = some outputId ∧
      database.records.output outputId = some output := by
  unfold findOutputsByOutpoints at found
  rw [Program.run_bind] at found
  cases built : outputOutpointKey userId txid vout with
  | error error =>
    unfold findOutputByOutpoint at found
    rw [built] at found
    cases found
  | ok key =>
    rw [findOutputByOutpoint_run built] at found
    cases named : database.records.named key with
    | none =>
      rw [named] at found
      cases found
    | some outputId =>
      rw [named] at found
      dsimp only at found
      cases padded : padNumber outputId with
      | error error =>
        rw [padded] at found
        cases found
      | ok number =>
        rw [padded] at found
        refine ⟨key, outputId, rfl, named, ?_⟩
        generalize filtered : (database.records.output outputId).filter _ = result at found
        cases result with
        | none => cases found
        | some kept =>
          cases found
          exact (Option.filter_eq_some_iff.mp filtered).1

theorem outpointKey_built (sent : output.txid = some txid) (encodable : Encodable output) :
    ∃ key, outputOutpointKey output.userId txid output.vout = .ok key ∧ outpointKeysOf output = [key] := by
  obtain ⟨scriptHash, -, built⟩ := bind_eq_ok.mp (encodable none)
  obtain ⟨spendable, -, built⟩ := bind_eq_ok.mp built
  obtain ⟨statusKeys, -, built⟩ := bind_eq_ok.mp built
  obtain ⟨outpoint, made, built⟩ := bind_eq_ok.mp built
  have keys := outpointIndexKeys_ok made
  unfold outpointIndexKeys at made
  rw [sent] at made
  obtain ⟨key, made, shape⟩ := bind_eq_ok.mp made
  exact ⟨key, made, by rw [← keys, ← Except.ok.inj shape]⟩

theorem findOutputsByOutpoints_named {output key} (sent : output.txid = some txid) (encodable : Encodable output)
    (built : outputOutpointKey output.userId txid output.vout = .ok key)
    (named : database.records.named key = some output.outputId) (stored : database.records.output output.outputId = some output) :
    ((findOutputsByOutpoints output.userId [(txid, output.vout)]).run (exec hash) database).1 =
      .ok [(txid ++ "." ++ toString output.vout, output)] := by
  obtain ⟨number, padded⟩ := (encodable_padded encodable).1
  have ran := @findOutputByOutpoint_run hash database _ _ _ _ built
  rw [named] at ran
  dsimp only at ran
  rw [padded, stored, Option.filter, if_pos (by simp [sent])] at ran
  unfold findOutputsByOutpoints
  rw [Program.run_bind, ran]
  rfl

end

end RocksDbWalletStore

theorem Indexed.output_encodable {records : Records} (indexed : Indexed records)
    (found : records.output outputId = some output) : Encodable output := by
  obtain ⟨version, stored⟩ := output_eq_some.mp found
  exact indexed.consistent.encodable outputId _ stored

theorem Indexed.output_keyed {records : Records} (indexed : Indexed records)
    (found : records.output outputId = some output) : output.outputId = outputId := by
  obtain ⟨version, stored⟩ := output_eq_some.mp found
  exact indexed.consistent.keyed outputId _ stored

section
variable {hash : ScriptHash} {before after : Database} (indexed : Indexed before.records) (rebuilt : Rebuilt hash before.records after.records)
include indexed rebuilt

theorem Rebuilt.scripted (consistent : Consistent (fun _ => none) after.records)
    (same : ∀ transactionId, SameAnswer hash before after (RocksDbWalletStore.findOutputsByTransactionId transactionId)) (outputId : Nat)
    (output : TableOutput) (found : before.records.output outputId = some output) : applyOutputScriptMetadata hash output = output := by
  have own := indexed.output_keyed found
  obtain ⟨number, padded⟩ := (encodable_padded (indexed.output_encodable found)).2
  obtain ⟨outputs, ran, members⟩ := findOutputsByTransactionId_run hash before indexed.consistent padded
  obtain ⟨others, ranAfter, membersAfter⟩ := findOutputsByTransactionId_run hash after consistent padded
  have answer := same output.transactionId
  rw [SameAnswer, ran, ranAfter] at answer
  have listed : output ∈ others := by
    rw [Except.ok.inj answer]
    refine (members output).mpr ⟨rfl, ?_⟩
    rw [own]
    exact output_eq_some.mp found
  have kept := output_eq_some.mpr ((membersAfter output).mp listed).2
  rw [own, rebuilt.output, found] at kept
  exact Option.some.inj kept

omit rebuilt in
theorem unfiled_of_sameCount (consistent : Consistent (fun _ => none) after.records)
    (same : ∀ userId basketId statuses,
      SameAnswer hash before after (RocksDbWalletStore.countSpendableOutputsByTransactionStatus userId basketId statuses))
    (outputId : Nat) (output : TableOutput) (found : before.records.output outputId = some output) (inIndex : InStatusIndex output) :
    before.records.transactionStatus output = none := by
  by_contra filed
  obtain ⟨status, filed⟩ := Option.ne_none_iff_exists'.mp filed
  obtain ⟨basketId, based⟩ := Option.isSome_iff_exists.mp inIndex.2
  obtain ⟨user, basket, -⟩ := encodable_spendable (indexed.output_encodable found) inIndex.1 based
  have one := nodup_singleton status
  have answer := same output.userId basketId [status]
  rw [SameAnswer, countByTransactionStatus_run hash indexed.consistent.filedIndexes user basket one,
    countByTransactionStatus_run hash consistent.filedIndexes user basket one] at answer
  have none : (storedOutputs after.records).countP (SpendableIn
      (fun outputId => (after.records.primary outputId).bind fun _ => none) output.userId basketId [status]) = 0 := by
    refine countP_eq_zero.mpr fun other _ => ?_
    simp [SpendableIn]
  have some : 0 < (storedOutputs before.records).countP (SpendableIn (fun outputId =>
      (before.records.primary outputId).bind fun record => before.records.transactionStatus record.value)
      output.userId basketId [status]) := by
    obtain ⟨version, stored⟩ := output_eq_some.mp found
    refine countP_pos_iff.mpr ⟨output, mem_storedOutputs.mpr ⟨outputId, _, stored, rfl⟩, decide_eq_true ?_⟩
    refine ⟨rfl, based, inIndex.1, status, mem_singleton_self _, ?_⟩
    dsimp only
    rw [indexed.output_keyed found, stored]
    exact filed
  have equal := Except.ok.inj answer
  rw [none] at equal
  omega

theorem Rebuilt.last (scripted : ∀ outputId output, before.records.output outputId = some output → applyOutputScriptMetadata hash output = output)
    (same : ∀ userId outpoints, SameAnswer hash before after (RocksDbWalletStore.findOutputsByOutpoints userId outpoints))
    (outputId : Nat) (output : TableOutput) (found : before.records.output outputId = some output) (key : IndexKey)
    (member : key ∈ outpointKeysOf output) (record : Versioned OutputIndexRecord) (entry : before.records.entry key = some record) :
    IsGreatest (holders before.records key) record.value.outputId := by
  have unowned := outpointKeysOf_owner member
  have rekeyed {other : Nat} {shares : TableOutput} (held : before.records.output other = some shares) :
      key ∈ rebuiltKeys hash shares ↔ key ∈ outpointKeysOf shares := by
    rw [rebuiltKeys, scripted other shares held]
    exact mem_keysOf_unowned unowned
  have sameHolders : {id | ∃ output, before.records.output id = some output ∧ key ∈ rebuiltKeys hash output} =
      holders before.records key := by
    ext other
    exact exists_congr fun shares => and_congr_right fun held => rekeyed held
  cases named : after.records.named key with
  | none => exact (rebuilt.unnamed key named outputId output found ((rekeyed found).mpr member)).elim
  | some last =>
    have greatest := rebuilt.named key last named
    rw [sameHolders] at greatest
    obtain ⟨shares, held, shared⟩ := greatest.1
    have own := indexed.output_keyed held
    subst own
    have encodable := indexed.output_encodable held
    obtain ⟨txid, sent⟩ : ∃ txid, shares.txid = some txid := by
      cases sent : shares.txid with
      | none => simp [outpointKeysOf, sent] at shared
      | some txid => exact ⟨txid, rfl⟩
    obtain ⟨built, made, only⟩ := RocksDbWalletStore.outpointKey_built sent encodable
    have sameKey := mem_singleton.mp (only ▸ shared)
    subst sameKey
    have kept : after.records.output shares.outputId = some shares := by
      rw [rebuilt.output, held]
      exact congrArg some (scripted _ shares held)
    have answered := @RocksDbWalletStore.findOutputsByOutpoints_named hash _ _ _ _ sent encodable made named kept
    have answer := same shares.userId [(txid, shares.vout)]
    rw [SameAnswer, answered] at answer
    obtain ⟨other, pointed, otherMade, points, stored⟩ := RocksDbWalletStore.named_of_findOutputsByOutpoints answer.symm
    have sameBuilt := Except.ok.inj (made.symm.trans otherMade)
    subst sameBuilt
    have named := named_eq_some.mpr ⟨record, entry, rfl⟩
    rw [Option.some.inj (named.symm.trans points), ← indexed.output_keyed stored]
    exact greatest

end

/-- A rebuild leaves every answer as it is exactly where it can restore everything. -/
theorem rebuild_answers_iff {hash : ScriptHash} {database : Database} (hashes : HashesToParts hash) (indexed : Indexed database.records) :
    AnswersAlike hash database (rebuildOutputIndexes hash database).2 ↔ Rebuildable hash database.records := by
  let after := (rebuildOutputIndexes hash database).2
  have rebuilt := (rebuildOutputIndexes_rebuilt hashes database indexed.consistent.keyed indexed.consistent.encodable).2
  have consistent := rebuilt.consistent hashes indexed.consistent.keyed indexed.consistent.encodable
  constructor
  · intro answers
    have scripted := rebuilt.scripted indexed consistent answers.byTransactionId
    exact ⟨scripted, unfiled_of_sameCount indexed consistent answers.countByStatus, rebuilt.last indexed scripted answers.byOutpoints⟩
  · intro rebuildable
    have alike := rebuilt.alike indexed rebuildable
    have nothing (userId basketId : Nat) (statuses : List TransactionStatus) (mode : SpendableValueReservationMode) (satoshis : Int) :
        reservable hash database userId basketId statuses mode satoshis = ∅ := by
      apply not_reserved indexed.consistent.filedIndexes
      intro outputId output found inIndex
      obtain ⟨version, stored⟩ := output_eq_some.mp found
      rw [stored]
      exact rebuildable.unfiled outputId output found inIndex
    have nothingAfter (userId basketId : Nat) (statuses : List TransactionStatus) (mode : SpendableValueReservationMode)
        (satoshis : Int) : reservable hash after userId basketId statuses mode satoshis = ∅ := by
      apply not_reserved consistent.filedIndexes
      intro outputId output found inIndex
      simp
    exact {
      byScriptHash := RocksDbWalletStore.findOutputsByScriptHash_alike alike
      spendable := RocksDbWalletStore.findSpendableOutputs_alike alike
      count := RocksDbWalletStore.countSpendableOutputs_alike alike
      countByStatus := RocksDbWalletStore.countByTransactionStatus_alike alike
      byOutpoints := RocksDbWalletStore.findOutputsByOutpoints_alike alike
      byTransactionId := RocksDbWalletStore.findOutputsByTransactionId_alike alike
      reservable := by
        intro userId basketId statuses mode satoshis
        rw [nothing]
        exact nothingAfter userId basketId statuses mode satoshis }

/-- Every script has the same hash. -/
def oneHash : ScriptHash := fun _ => "5f"

theorem oneHash_parts : HashesToParts oneHash := by
  intro script
  show normalizeIndexPart "5f" = .ok "5f"
  decide +kernel

def storedOutput (output : TableOutput) : Database :=
  runOperations [.insertTransaction (newTransaction .completed), .insertOutput output]

theorem storedOutput_indexed (output : TableOutput) : Indexed (storedOutput output).records := by
  have first : Reached noHash (OutputOperation.FilesCleanly noHash) (runOperations [.insertTransaction (newTransaction .completed)]) := by
    refine .step .empty (.insertTransaction (newTransaction .completed)) ?_
    intro outputId record found
    cases found
  apply @indexed_of_reached noHash
  refine .step first (.insertOutput output) (StoresCleanly.of_new ?_)
  have only : (runOperations [.insertTransaction (newTransaction .completed)]).records.primaryIds = [] := by decide +kernel
  cases found : (runOperations [.insertTransaction (newTransaction .completed)]).records.primary _ with
  | none => rfl
  | some record =>
    have listed := mem_primaryIds found
    rw [only] at listed
    cases listed

/-- The output is spent, so it has no key of the status index to lose. -/
theorem rebuild_answers_iff_spent : AnswersAlike oneHash (storedOutput { newOutput with spendable := false })
    (rebuildOutputIndexes oneHash (storedOutput { newOutput with spendable := false })).2 := by
  have only : (storedOutput { newOutput with spendable := false }).records.primaryIds = [1] := by decide +kernel
  have row : (storedOutput { newOutput with spendable := false }).records.output 1 = some { changeOutput with spendable := false } := by
    decide +kernel
  have single {outputId : Nat} {output : TableOutput}
      (found : (storedOutput { newOutput with spendable := false }).records.output outputId = some output) :
      outputId = 1 ∧ output = { changeOutput with spendable := false } := by
    obtain ⟨version, stored⟩ := output_eq_some.mp found
    have one := mem_singleton.mp (only ▸ mem_primaryIds stored)
    subst one
    exact ⟨rfl, Option.some.inj (found.symm.trans row)⟩
  apply (rebuild_answers_iff oneHash_parts (storedOutput_indexed _)).mpr
  constructor
  · intro outputId output found
    rw [(single found).2]
    rfl
  · intro outputId output found inIndex
    rw [(single found).2] at inIndex
    cases inIndex.1
  · intro outputId output found key member record entry
    obtain ⟨sameId, sameOutput⟩ := single found
    subst sameId sameOutput
    have trimmed : trim "aa" = "aa" := by decide +kernel
    have shape : key = .outpoint 1 "aa" 0 := by simpa [outpointKeysOf, changeOutput, trimmed] using member
    have named : (storedOutput { newOutput with spendable := false }).records.named (.outpoint 1 "aa" 0) = some 1 := by decide +kernel
    rw [← shape] at named
    have first := Option.some.inj ((named_eq_some.mpr ⟨record, entry, rfl⟩).symm.trans named)
    rw [first]
    refine ⟨⟨_, row, member⟩, ?_⟩
    rintro other ⟨shares, held, -⟩
    exact Nat.le_of_eq (single held).1

/-- The rebuild forgets the status an output is filed under. -/
theorem rebuild_uncounted : ¬∀ (hash : ScriptHash) (database : Database), HashesToParts hash → Indexed database.records →
    AnswersAlike hash database (rebuildOutputIndexes hash database).2 := by
  intro claim
  have answers := claim oneHash (storedOutput newOutput) oneHash_parts (storedOutput_indexed newOutput)
  have before : ((RocksDbWalletStore.countSpendableOutputsByTransactionStatus 1 1 [.completed]).run (exec oneHash)
      (storedOutput newOutput)).1 = .ok 1 := by decide +kernel
  have after : ((RocksDbWalletStore.countSpendableOutputsByTransactionStatus 1 1 [.completed]).run (exec oneHash)
      (rebuildOutputIndexes oneHash (storedOutput newOutput)).2).1 = .ok 0 := by decide +kernel
  have same := answers.countByStatus 1 1 [.completed]
  rw [SameAnswer, before, after] at same
  cases same

end WalletToolbox

import Mathlib.Order.Bounds.Basic
import WalletToolbox.Proofs.OutputCounts

/-! What a rebuild of the output indexes leaves. Every key goes, and every output puts
its keys again, in the order of the ids and without a transaction status. So no key of
the status index comes back, and an outpoint that several outputs share names the last
of them. -/

namespace WalletToolbox
open Effects Async RocksDbWalletStore List

/-- The stored row of an output. -/
def Records.output (records : Records) (outputId : Nat) : Option TableOutput :=
  (records.primary outputId).map Versioned.value

def HashesToParts (hash : ScriptHash) : Prop := ∀ script, normalizeIndexPart (hash script) = .ok (hash script)

theorem named_puts (keys : List IndexKey) (records : Records) :
    (applyWrites fresh (keys.map (putIndex output)) records).named key =
      if key ∈ keys then some output.outputId else records.named key := by
  induction keys generalizing records with
  | nil => rfl
  | cons first rest ih =>
    rw [map_cons, applyWrites_cons, ih]
    by_cases later : key ∈ rest
    · rw [if_pos later, if_pos (.tail _ later)]
    · rw [if_neg later]
      by_cases same : key = first
      · subst same
        rw [if_pos (.head _), Records.named, Records.entry, putIndex, Write.apply, AList.lookup_insert]
        rfl
      · have others : StorageKey.index key ≠ .index first := by simpa using same
        have neither : key ∉ first :: rest := by simp [same, later]
        rw [if_neg neither, Records.named, Records.entry, putIndex, Write.apply, AList.lookup_insert_ne others]
        rfl

theorem encodable_metadata {hash} (hashes : HashesToParts hash) (encodable : Encodable output) :
    Encodable (applyOutputScriptMetadata hash output) := by
  unfold applyOutputScriptMetadata
  split
  · exact encodable
  · exact encodable
  · next script _ _ =>
    obtain ⟨scriptHash, madeScriptHash, built⟩ := bind_eq_ok.mp (encodable none)
    obtain ⟨spendable, madeSpendable, built⟩ := bind_eq_ok.mp built
    obtain ⟨statusKeys, madeStatus, built⟩ := bind_eq_ok.mp built
    obtain ⟨outpoint, madeOutpoint, built⟩ := bind_eq_ok.mp built
    obtain ⟨transaction, madeTransaction, built⟩ := bind_eq_ok.mp built
    obtain ⟨transactionId, first, made⟩ := bind_eq_ok.mp madeTransaction
    obtain ⟨outputId, numbered, made⟩ := bind_eq_ok.mp made
    have hashed : ∃ keys, scriptHashIndexKeys { output with scriptHash := some (hash script) } = .ok keys := by
      unfold scriptHashIndexKeys
      dsimp only
      split
      · exact ⟨[], rfl⟩
      · refine ⟨[.scriptHash (hash script) outputId], ?_⟩
        rw [outputScriptHashKey, hashes script, numbered]
        rfl
    obtain ⟨keys, madeHash⟩ := hashed
    refine @encodable_of_built _ none (keys ++ spendable ++ statusKeys ++ outpoint ++ [transaction]) ?_
    have others : spendableIndexKeys { output with scriptHash := some (hash script) } = .ok spendable := madeSpendable
    have statuses : statusIndexKeys { output with scriptHash := some (hash script) } none = .ok statusKeys := madeStatus
    have outpoints : outpointIndexKeys { output with scriptHash := some (hash script) } = .ok outpoint := madeOutpoint
    rw [outputIndexKeys, madeHash, others, statuses, outpoints]
    simp only [madeTransaction]
    rfl

theorem mem_scanOutputs :
    (outputId, record) ∈ scanOutputs records ↔ records.primary outputId = some record := by
  unfold scanOutputs
  simp only [mem_filterMap, Option.map_eq_some_iff, Prod.mk.injEq, mem_insertionSort]
  constructor
  · rintro ⟨id, -, stored, found, rfl, rfl⟩
    exact found
  · intro found
    exact ⟨outputId, mem_filterMap.mp (mem_primaryIds found), record, found, rfl, rfl⟩

theorem scanOutputs_sorted (records : Records) : (scanOutputs records).Pairwise fun first second => first.1 < second.1 := by
  have ascending : ((records.primaryIds).insertionSort fun first second => first ≤ second).Pairwise (· < ·) := by
    have sorted := pairwise_insertionSort (fun first second : Nat => first ≤ second) records.primaryIds
    have distinct : ((records.primaryIds).insertionSort fun first second => first ≤ second).Nodup :=
      (perm_insertionSort _ _).nodup_iff.mpr (primaryIds_nodup records)
    refine (sorted.and distinct).imp fun both => ?_
    omega
  refine List.Pairwise.filterMap _ ?_ ascending
  intro first second less one inFirst two inSecond
  obtain ⟨_, -, rfl⟩ := Option.map_eq_some_iff.mp inFirst
  obtain ⟨_, -, rfl⟩ := Option.map_eq_some_iff.mp inSecond
  exact less

def rebuiltKeys (hash : ScriptHash) (output : TableOutput) : List IndexKey :=
  keysOf (applyOutputScriptMetadata hash output) none

structure PutsBack (hash : ScriptHash) (outputs : List (Nat × Versioned TableOutput)) (before after : Records) : Prop where
  stored : ∀ outputId record, (outputId, record) ∈ outputs → after.output outputId = some (applyOutputScriptMetadata hash record.value)
  others : ∀ outputId, (∀ record, (outputId, record) ∉ outputs) → after.output outputId = before.output outputId
  named : ∀ key outputId, after.named key = some outputId →
    (before.named key = some outputId ∧ ∀ id record, (id, record) ∈ outputs → key ∉ rebuiltKeys hash record.value) ∨
    IsGreatest {id | ∃ record, (id, record) ∈ outputs ∧ key ∈ rebuiltKeys hash record.value} outputId
  unnamed : ∀ key, after.named key = none ↔ before.named key = none ∧
    ∀ outputId record, (outputId, record) ∈ outputs → key ∉ rebuiltKeys hash record.value

section
variable {hash : ScriptHash} {outputId : Nat} {record : Versioned TableOutput} (encodable : Encodable (applyOutputScriptMetadata hash record.value))
  (keyed : record.value.outputId = outputId)
include encodable

theorem rebuildOutputPuts_eq : rebuildOutputPuts hash outputId record =
    .ok (.put (.outputPrimary outputId) (applyOutputScriptMetadata hash record.value) ::
      (rebuiltKeys hash record.value).map (putIndex (applyOutputScriptMetadata hash record.value))) := by
  have puts := indexPutsForOutput_ok.mpr ⟨_, encodable none, rfl⟩
  rw [rebuildOutputPuts, puts]
  rfl

include keyed

/-- One output. -/
theorem rebuildOutputPuts_putsBack (built : rebuildOutputPuts hash outputId record = .ok puts) (records : Records) :
    PutsBack hash [(outputId, record)] records (applyWrites false puts records) := by
  rw [rebuildOutputPuts_eq encodable] at built
  cases built
  rw [applyWrites_cons]
  let first := (Write.put (.outputPrimary outputId) (applyOutputScriptMetadata hash record.value)).apply false records
  have indexes : ∀ write ∈ (rebuiltKeys hash record.value).map (putIndex (applyOutputScriptMetadata hash record.value)),
      ∃ key, write.key = .index key := by
    intro write member
    obtain ⟨key, -, rfl⟩ := mem_map.mp member
    exact ⟨key, rfl⟩
  have output (id : Nat) : (applyWrites false ((rebuiltKeys hash record.value).map
      (putIndex (applyOutputScriptMetadata hash record.value))) first).output id = first.output id :=
    congrArg (Option.map Versioned.value) (applyWrites_lookup_noIndex indexes (by simp))
  have named (key : IndexKey) : (applyWrites false ((rebuiltKeys hash record.value).map
      (putIndex (applyOutputScriptMetadata hash record.value))) first).named key =
      if key ∈ rebuiltKeys hash record.value then some outputId else records.named key := by
    have unwritten : first.entry key = records.entry key := AList.lookup_insert_ne (by simp)
    rw [named_puts, Records.named, unwritten, applyOutputScriptMetadata_outputId, keyed]
    rfl
  constructor
  · intro id stored member
    cases mem_singleton.mp member
    have put : first.primary outputId = some (encode (applyOutputScriptMetadata hash record.value) (records.primary outputId)) :=
      AList.lookup_insert _
    rw [output, Records.output, put]
    rfl
  · intro id other
    have different : StorageKey.outputPrimary id ≠ .outputPrimary outputId := by
      intro same
      cases same
      exact other record (mem_singleton_self _)
    have kept : first.primary id = records.primary id := AList.lookup_insert_ne different
    rw [output, Records.output, kept]
    rfl
  · intro key id found
    rw [named] at found
    split at found
    · next member =>
      cases found
      refine .inr ⟨⟨record, mem_singleton_self _, member⟩, ?_⟩
      rintro other ⟨stored, listed, -⟩
      cases mem_singleton.mp listed
      exact le_rfl
    · next missing =>
      refine .inl ⟨found, fun other stored listed => ?_⟩
      cases mem_singleton.mp listed
      exact missing
  · intro key
    rw [named]
    split
    · next member =>
      refine ⟨fun found => (by cases found), fun found => ?_⟩
      exact (found.2 outputId record (mem_singleton_self _) member).elim
    · next missing =>
      refine ⟨fun found => ⟨found, fun other stored listed => ?_⟩, And.left⟩
      cases mem_singleton.mp listed
      exact missing

end

theorem rebuildPuts_putsBack {hash} (outputs : List (Nat × Versioned TableOutput))
    (sorted : outputs.Pairwise fun first second => first.1 < second.1)
    (each : ∀ outputId record, (outputId, record) ∈ outputs → record.value.outputId = outputId ∧
      Encodable (applyOutputScriptMetadata hash record.value)) :
    ∃ puts, rebuildPuts hash outputs = .ok puts ∧ ∀ records, PutsBack hash outputs records (applyWrites false puts records) := by
  induction outputs with
  | nil =>
    refine ⟨[], rfl, fun records => ⟨?_, ?_, ?_, ?_⟩⟩
    · intro outputId record member
      cases member
    · intro outputId _
      rfl
    · intro key outputId found
      exact .inl ⟨found, fun _ _ member => by cases member⟩
    · intro key
      exact ⟨fun found => ⟨found, fun _ _ member => by cases member⟩, And.left⟩
  | cons first rest ih =>
    obtain ⟨outputId, record⟩ := first
    obtain ⟨before, later⟩ := pairwise_cons.mp sorted
    obtain ⟨keyed, encodable⟩ := each outputId record (.head _)
    obtain ⟨puts, built, putsBack⟩ := ih later fun id stored member => each id stored (.tail _ member)
    have one := @rebuildOutputPuts_eq _ outputId _ encodable
    refine ⟨_ ++ puts, by rw [rebuildPuts, one, built]; rfl, fun records => ?_⟩
    have own := rebuildOutputPuts_putsBack encodable keyed one records
    rw [applyWrites_append]
    have others := putsBack (applyWrites false (.put (.outputPrimary outputId) (applyOutputScriptMetadata hash record.value) ::
      (rebuiltKeys hash record.value).map (putIndex (applyOutputScriptMetadata hash record.value))) records)
    constructor
    · intro id stored member
      rcases mem_cons.mp member with same | member
      · cases same
        rw [others.others outputId fun other listed => absurd (before _ listed) (Nat.lt_irrefl _)]
        exact own.stored outputId record (mem_singleton_self _)
      · exact others.stored id stored member
    · intro id missing
      rw [others.others id fun stored listed => missing stored (.tail _ listed)]
      apply own.others
      intro stored listed
      exact missing stored (mem_singleton.mp listed ▸ .head _)
    · intro key id found
      rcases others.named key id found with ⟨found, none⟩ | ⟨⟨stored, listed, member⟩, greatest⟩
      · rcases own.named key id found with ⟨found, missing⟩ | ⟨⟨stored, listed, member⟩, -⟩
        · refine .inl ⟨found, fun other stored listed => ?_⟩
          rcases mem_cons.mp listed with same | listed
          · exact missing other stored (same ▸ mem_singleton_self _)
          · exact none other stored listed
        · cases mem_singleton.mp listed
          refine .inr ⟨⟨record, .head _, member⟩, ?_⟩
          rintro other ⟨stored, listed, holds⟩
          rcases mem_cons.mp listed with same | listed
          · cases same
            exact le_rfl
          · exact (none other stored listed holds).elim
      · refine .inr ⟨⟨stored, .tail _ listed, member⟩, ?_⟩
        rintro other ⟨kept, inList, holds⟩
        rcases mem_cons.mp inList with same | inList
        · cases same
          exact Nat.le_of_lt (before _ listed)
        · exact greatest ⟨kept, inList, holds⟩
    · intro key
      rw [others.unnamed key, own.unnamed key]
      constructor
      · rintro ⟨⟨unnamed, missing⟩, none⟩
        refine ⟨unnamed, fun other stored listed => ?_⟩
        rcases mem_cons.mp listed with same | listed
        · exact missing other stored (same ▸ mem_singleton_self _)
        · exact none other stored listed
      · rintro ⟨unnamed, missing⟩
        refine ⟨⟨unnamed, fun other stored listed => ?_⟩, fun other stored listed => missing other stored (.tail _ listed)⟩
        exact missing other stored (mem_singleton.mp listed ▸ .head _)

structure Rebuilt (hash : ScriptHash) (before after : Records) : Prop where
  output : ∀ outputId, after.output outputId = (before.output outputId).map (applyOutputScriptMetadata hash)
  named : ∀ key outputId, after.named key = some outputId →
    IsGreatest {id | ∃ output, before.output id = some output ∧ key ∈ rebuiltKeys hash output} outputId
  unnamed : ∀ key, after.named key = none → ∀ outputId output, before.output outputId = some output → key ∉ rebuiltKeys hash output

def indexKey? : StorageKey → Option IndexKey
  | .index key => some key
  | _ => none

theorem collectOutputIndexDeletes_entry (records : Records) (key : IndexKey) :
    (applyWrites false (collectOutputIndexDeletes records) records).entry key = none := by
  let keys : List IndexKey := records.keys.filterMap indexKey?
  have shape : collectOutputIndexDeletes records = keys.map deleteIndex := by
    rw [map_filterMap]
    refine filterMap_congr fun key _ => ?_
    cases key <;> rfl
  have gone : ((applyWrites false (collectOutputIndexDeletes records) records).entry key).isSome = false := by
    rw [shape, entry_deletes_isSome]
    cases found : records.entry key with
    | none => rfl
    | some record =>
      have listed : key ∈ keys := by
        refine mem_filterMap.mpr ⟨.index key, ?_, rfl⟩
        exact AList.mem_keys.mp (AList.lookup_isSome.mp (Option.isSome_iff_exists.mpr ⟨record, found⟩))
      simp [listed]
  exact Option.isSome_eq_false_iff.mp gone |> Option.isNone_iff_eq_none.mp

theorem rebuildOutputIndexes_rebuilt {hash} (hashes : HashesToParts hash) (database : Database) (keyed : Keyed database.records)
    (encodable : ∀ outputId record, database.records.primary outputId = some record → Encodable record.value) :
    (rebuildOutputIndexes hash database).1 = .ok (scanOutputs database.records).length ∧
      Rebuilt hash database.records (rebuildOutputIndexes hash database).2.records := by
  obtain ⟨puts, built, putsBack⟩ := @rebuildPuts_putsBack hash (scanOutputs database.records) (scanOutputs_sorted _)
    fun outputId record member => by
      have found := mem_scanOutputs.mp member
      exact ⟨keyed outputId record found, encodable_metadata hashes (encodable outputId record found)⟩
  unfold rebuildOutputIndexes
  dsimp only
  rw [built]
  refine ⟨rfl, ?_⟩
  let cleared := applyWrites false (collectOutputIndexDeletes database.records) database.records
  have after := putsBack cleared
  have written : (collectOutputIndexDeletes database.records ++ puts).foldl (Write.apply false) database.records =
      applyWrites false puts cleared := applyWrites_append _ _
  have unnamed (key : IndexKey) : cleared.named key = none := by
    rw [Records.named, collectOutputIndexDeletes_entry]
    rfl
  have kept (outputId : Nat) : cleared.output outputId = database.records.output outputId := by
    refine congrArg (Option.map Versioned.value) (applyWrites_lookup_noIndex ?_ (by simp))
    intro write member
    obtain ⟨key, -, shape⟩ := mem_filterMap.mp member
    cases key with
    | index key =>
      cases shape
      exact ⟨key, rfl⟩
    | counter | entity | outputPrimary => cases shape
  dsimp only
  rw [written]
  have listed {outputId : Nat} {output : TableOutput} (found : database.records.output outputId = some output) :
      ∃ record, (outputId, record) ∈ scanOutputs database.records ∧ record.value = output := by
    obtain ⟨record, stored, same⟩ := Option.map_eq_some_iff.mp found
    exact ⟨record, mem_scanOutputs.mpr stored, same⟩
  have holders (key : IndexKey) : {id | ∃ record, (id, record) ∈ scanOutputs database.records ∧ key ∈ rebuiltKeys hash record.value} =
      {id | ∃ output, database.records.output id = some output ∧ key ∈ rebuiltKeys hash output} := by
    ext id
    constructor
    · rintro ⟨record, member, holds⟩
      refine ⟨record.value, ?_, holds⟩
      rw [Records.output, mem_scanOutputs.mp member]
      rfl
    · rintro ⟨output, found, holds⟩
      obtain ⟨record, member, rfl⟩ := listed found
      exact ⟨record, member, holds⟩
  constructor
  · intro outputId
    cases found : database.records.output outputId with
    | none =>
      rw [after.others outputId, kept, found]
      · rfl
      · intro record member
        have stored := mem_scanOutputs.mp member
        rw [Records.output, stored] at found
        cases found
    | some output =>
      obtain ⟨record, member, rfl⟩ := listed found
      exact after.stored outputId record member
  · intro key outputId found
    rcases after.named key outputId found with ⟨earlier, -⟩ | greatest
    · rw [unnamed] at earlier
      cases earlier
    · rwa [holders] at greatest
  · intro key found outputId output stored
    obtain ⟨record, member, rfl⟩ := listed stored
    exact ((after.unnamed key).mp found).2 outputId record member

end WalletToolbox

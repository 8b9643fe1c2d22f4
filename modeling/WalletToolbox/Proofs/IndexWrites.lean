import WalletToolbox.Proofs.Allocation
import WalletToolbox.Proofs.IndexKeys
import WalletToolbox.Proofs.OutputWrites

/-! The indexes after a write. The index entries are exact when they are the keys of
the primary records, each under the status its output is filed with. -/

namespace WalletToolbox
open Async

theorem Reads.unchanged {hash} (op : DbOp) (database) (reads : Reads op) :
    (exec hash op database).2 = database := reads.exec_eq database

namespace RocksDbWalletStore
variable (hash : ScriptHash)

theorem write_run (entry) (database) :
    (write entry).run (exec hash) database = (.ok (), { database with records := entry.apply false database.records }) := by
  cases entry <;> rfl

theorem batch_run (writes) (database) :
    (batch writes).run (exec hash) database = (.ok (), { database with records := applyWrites false writes database.records }) := by
  induction writes generalizing database with
  | nil => rfl
  | cons first rest ih =>
    rw [batch, Program.run_bind, write_run]
    exact ih _

end RocksDbWalletStore

structure Consistent (status : TableOutput → Option TransactionStatus) (records : Records) : Prop where
  keyed : Keyed records
  encodable : ∀ outputId record, records.primary outputId = some record → Encodable record.value
  owned : ∀ key record, records.entry key = some record → ∀ owner, key.owner = some owner → owner = record.value.outputId
  exact : ∀ key, (records.entry key).isSome = true ↔
    ∃ outputId record, records.primary outputId = some record ∧ key ∈ keysOf record.value (status record.value)

/-- What storing `next` in its indexes did, when it was filed under `status`. -/
structure Stored (next : TableOutput) (status : Option TransactionStatus) (before after : Records) : Prop where
  encodable : Encodable next
  primary : ∃ version, after.primary next.outputId = some ⟨next, version⟩
  others : ∀ outputId, outputId ≠ next.outputId → after.primary outputId = before.primary outputId
  transactions : ∀ key, after.row .transactions key = before.row .transactions key
  owned : ∀ key record, after.entry key = some record → before.entry key = some record ∨
    key ∈ keysOf next status ∧ record.value.outputId = next.outputId
  entries : ∀ key, (after.entry key).isSome = true ↔ key ∈ keysOf next status ∨
    (before.entry key).isSome = true ∧ ∀ old, before.primary next.outputId = some old → key ∉ keysOf old.value status

def InStatusIndex (output : TableOutput) : Prop := output.spendable = true ∧ output.basketId.isSome = true

structure Replaceable (status : TableOutput → Option TransactionStatus) (next : TableOutput) (filed : Option TransactionStatus)
    (records : Records) : Prop where
  statuses : ∀ old, records.primary next.outputId = some old → InStatusIndex old.value → status old.value = filed
  outpoints : ∀ old, records.primary next.outputId = some old → ∀ key ∈ outpointKeysOf old.value, key ∉ outpointKeysOf next →
    ∀ outputId other, outputId ≠ next.outputId → records.primary outputId = some other → key ∉ outpointKeysOf other.value

section
variable {status : TableOutput → Option TransactionStatus} {next : TableOutput} {filed : Option TransactionStatus}
  {before after : Records}

theorem Stored.value (stored : Stored next filed before after) {record} (found : after.primary next.outputId = some record) :
    record.value = next := by
  obtain ⟨version, primary⟩ := stored.primary
  rw [primary] at found
  cases found
  rfl

theorem Stored.records (stored : Stored next filed before after) (good : Nat → TableOutput → Prop) (new : good next.outputId next)
    (old : ∀ outputId record, before.primary outputId = some record → good outputId record.value) :
    ∀ outputId record, after.primary outputId = some record → good outputId record.value := by
  intro outputId record found
  by_cases same : outputId = next.outputId
  · subst same
    rwa [stored.value found]
  · exact old outputId record (stored.others outputId same ▸ found)

theorem Stored.consistent (stored : Stored next filed before after) (consistent : Consistent status before)
    (filedAs : keysOf next filed = keysOf next (status next)) (replaceable : Replaceable status next filed before) :
    Consistent status after := by
  obtain ⟨version, primary⟩ := stored.primary
  have here := @stored.value
  constructor
  · exact stored.records (fun id output => output.outputId = id) rfl consistent.keyed
  · exact stored.records (fun _ => Encodable) stored.encodable consistent.encodable
  · intro key record found owner owns
    rcases stored.owned key record found with earlier | ⟨member, points⟩
    · exact consistent.owned key record earlier owner owns
    · rcases keysOf_owner member with own | outpoint
      · have same := Option.some.inj (owns.symm.trans own)
        exact same.trans points.symm
      · rw [outpointKeysOf_owner outpoint] at owns
        cases owns
  · intro key
    rw [stored.entries key]
    constructor
    · intro present
      rcases present with member | ⟨present, gone⟩
      · exact ⟨next.outputId, _, primary, filedAs ▸ member⟩
      · obtain ⟨outputId, record, found, member⟩ := (consistent.exact key).mp present
        have other : outputId ≠ next.outputId := by
          intro same
          subst same
          apply gone record found
          rcases mem_keysOf_of_status member with kept | statusKey
          · exact kept
          · obtain ⟨basketId, -, spendable, based, -, -⟩ := statusKeysOf_shape statusKey
            have indexed : InStatusIndex record.value := ⟨spendable, by rw [based]; rfl⟩
            rw [← replaceable.statuses record found indexed]
            exact member
        exact ⟨outputId, record, (stored.others outputId other).trans found, member⟩
    · rintro ⟨outputId, record, found, member⟩
      by_cases same : outputId = next.outputId
      · subst same
        rw [here found] at member
        exact .inl (filedAs ▸ member)
      · have earlier := stored.others outputId same ▸ found
        by_cases kept : key ∈ keysOf next filed
        · exact .inl kept
        · refine .inr ⟨(consistent.exact key).mpr ⟨outputId, record, earlier, member⟩, fun old replaced deleted => ?_⟩
          -- a key of both records is an outpoint, and the new record does not have it
          rcases keysOf_owner deleted with own | outpoint
          · rcases keysOf_owner member with mine | outpoint
            · have same := Option.some.inj (own.symm.trans mine)
              rw [consistent.keyed _ _ replaced, consistent.keyed _ _ earlier] at same
              exact ‹outputId ≠ next.outputId› same.symm
            · rw [outpointKeysOf_owner outpoint] at own
              cases own
          · rcases keysOf_owner member with mine | shared
            · rw [outpointKeysOf_owner outpoint] at mine
              cases mine
            · have absent : key ∉ outpointKeysOf next := fun present => kept (outpointKeysOf_subset present)
              exact replaceable.outpoints old replaced key outpoint absent outputId record same earlier shared

end

section
variable {fresh : Bool} {records : Records} {output : TableOutput} {keys : List IndexKey} {key : IndexKey}

theorem entry_of_deletes
    (found : (applyWrites fresh (keys.map deleteIndex) records).entry key = some record) : records.entry key = some record := by
  induction keys generalizing records with
  | nil => exact found
  | cons first rest ih =>
    have earlier := ih found
    by_cases same : key = first
    · subst same
      simp [Records.entry, deleteIndex, Write.apply] at earlier
    · have others : StorageKey.index key ≠ .index first := by simpa using same
      rwa [Records.entry, deleteIndex, Write.apply, AList.lookup_erase_ne others] at earlier

theorem entry_of_puts
    (found : (applyWrites fresh (keys.map (putIndex output)) records).entry key = some record) :
    records.entry key = some record ∨ key ∈ keys ∧ record.value.outputId = output.outputId := by
  induction keys generalizing records with
  | nil => exact .inl found
  | cons first rest ih =>
    rcases ih found with earlier | ⟨member, points⟩
    · by_cases same : key = first
      · subst same
        rw [Records.entry, putIndex, Write.apply, AList.lookup_insert] at earlier
        cases earlier
        exact .inr ⟨.head _, rfl⟩
      · have others : StorageKey.index key ≠ .index first := by simpa using same
        rw [Records.entry, putIndex, Write.apply, AList.lookup_insert_ne others] at earlier
        exact .inl earlier
    · exact .inr ⟨.tail _ member, points⟩

theorem entry_deletes_isSome : ((applyWrites fresh (keys.map deleteIndex) records).entry key).isSome =
    ((records.entry key).isSome && !decide (key ∈ keys)) := by
  have shape : keys.map deleteIndex = (keys.map StorageKey.index).map .delete := by
    rw [List.map_map]
    rfl
  rw [shape, Records.entry, applyWrites_deletes_isSome]
  simp

theorem entry_puts_isSome : ((applyWrites fresh (keys.map (putIndex output)) records).entry key).isSome =
    ((records.entry key).isSome || decide (key ∈ keys)) := by
  rw [Records.entry, applyWrites_puts_isSome]
  · simp [Write.key, putIndex, Function.comp_def]
  · intro write member
    obtain ⟨key, -, rfl⟩ := List.mem_map.mp member
    exact ⟨_, _, rfl⟩

end

section
variable (fresh : Bool) {next : TableOutput} {filed : Option TransactionStatus} {before middle : Records} (deletes : List Write)
  {puts : List Write}

theorem stored_of_writes (deleted : RocksDbWalletStore.existingDeletes filed (before.primary next.outputId) = .ok deletes)
    (filled : indexPutsForOutput next filed = .ok puts)
    (primary : middle.primary next.outputId = some ⟨next, version⟩)
    (others : ∀ outputId, outputId ≠ next.outputId → middle.primary outputId = before.primary outputId)
    (transactions : ∀ key, middle.row .transactions key = before.row .transactions key)
    (entries : ∀ key, middle.entry key = (applyWrites fresh deletes before).entry key) :
    Stored next filed before (applyWrites fresh puts middle) := by
  obtain ⟨keys, built, rfl⟩ := indexPutsForOutput_ok.mp filled
  obtain ⟨oldKeys, same⟩ := RocksDbWalletStore.existingDeletes_ok deleted
  subst same
  have indexes : ∀ write ∈ keys.map (putIndex next), ∃ key, write.key = .index key := fun _ => indexPuts_key filled
  have removed (key : IndexKey) : key ∈ oldKeys ↔ ∃ old, before.primary next.outputId = some old ∧ key ∈ keysOf old.value filed := by
    cases found : before.primary next.outputId with
    | none =>
      rw [found] at deleted
      have none := Except.ok.inj deleted
      rw [List.map_eq_nil_iff.mp none.symm]
      simp
    | some old =>
      rw [found] at deleted
      obtain ⟨built, made, same⟩ := indexDeletesForOutput_ok.mp deleted
      have equal := List.map_injective_iff.mpr (fun _ _ same => by cases same; rfl) same
      rw [equal, outputIndexKeys_ok made]
      simp
  refine ⟨encodable_of_built built, ⟨version, ?_⟩, ?_, ?_, ?_, ?_⟩
  · rw [Records.primary, applyWrites_lookup_noIndex indexes (by simp)]
    exact primary
  · intro outputId other
    rw [Records.primary, applyWrites_lookup_noIndex indexes (by simp)]
    exact others outputId other
  · intro key
    rw [Records.row, applyWrites_lookup_noIndex indexes (by simp)]
    exact transactions key
  · intro key record found
    rcases entry_of_puts found with earlier | ⟨member, points⟩
    · rw [entries key] at earlier
      exact .inl (entry_of_deletes earlier)
    · exact .inr ⟨outputIndexKeys_ok built ▸ member, points⟩
  · intro key
    rw [entry_puts_isSome, entries key, entry_deletes_isSome, outputIndexKeys_ok built]
    have kept : key ∉ oldKeys ↔ ∀ old, before.primary next.outputId = some old → key ∉ keysOf old.value filed := by
      rw [removed key]
      simp
    rw [← kept]
    simp only [Bool.or_eq_true, Bool.and_eq_true, Bool.not_eq_true', decide_eq_true_eq, decide_eq_false_iff_not]
    tauto

end

namespace RocksDbWalletStore
variable {hash : ScriptHash} {output : TableOutput} {filed : Option TransactionStatus} {database : Database}

theorem getPrimary_found
    (read : ((getPrimary outputId).run (exec hash) database).1 = .ok existing) : existing = database.records.primary outputId := by
  unfold getPrimary at read
  cases padded : padNumber outputId with
  | error error =>
    rw [padded] at read
    cases read
  | ok number =>
    rw [padded, padNumber_natCast padded] at read
    exact (Except.ok.inj read).symm

theorem putOutput_run : (putOutput hash output filed).Ends (exec hash) database fun outcome after =>
    (after = database ∧ outcome ≠ .ok ()) ∨
      outcome = .ok () ∧ Stored (applyOutputScriptMetadata hash output) filed database.records after.records := by
  unfold putOutput
  split
  · exact .inl ⟨rfl, fun same => by cases same⟩
  · apply Program.Ends.after (getPrimary_uses _) Reads.unchanged ?_ fun _ => .inl ⟨rfl, fun same => by cases same⟩
    intro existing read
    apply Program.Ends.after (Program.Uses.ofExcept _) Reads.unchanged ?_ fun _ => .inl ⟨rfl, fun same => by cases same⟩
    intro writes built
    rw [Program.run_ofExcept] at built
    have found := getPrimary_found read
    obtain ⟨deletes, puts, deleted, filled, rfl⟩ := putOutputWrites_ok built
    unfold Program.Ends
    rw [batch_run, applyWrites_append, applyWrites_cons]
    refine .inr ⟨rfl, ?_⟩
    have indexes : ∀ write ∈ deletes, ∃ key, write.key = .index key := by
      obtain ⟨keys, rfl⟩ := existingDeletes_ok deleted
      intro write member
      obtain ⟨key, -, rfl⟩ := List.mem_map.mp member
      exact ⟨key, rfl⟩
    apply stored_of_writes false deletes
    · rw [applyOutputScriptMetadata_outputId, ← found]
      exact deleted
    · exact filled
    · exact AList.lookup_insert _
    · intro outputId other
      have different : StorageKey.outputPrimary outputId ≠ .outputPrimary (applyOutputScriptMetadata hash output).outputId := by
        simpa using other
      rw [Records.primary, Write.apply, AList.lookup_insert_ne different, applyWrites_lookup_noIndex indexes (by simp)]
    · intro key
      rw [Records.row, Write.apply, AList.lookup_insert_ne (by simp), applyWrites_lookup_noIndex indexes (by simp)]
    · intro key
      rw [Records.entry, Write.apply, AList.lookup_insert_ne (by simp)]

end RocksDbWalletStore

theorem reserve_stored (hash) (reservation) (database : Database) (keyed : Keyed database.records) :
    ((exec hash (.reserve reservation) database).2 = database ∧
      ∀ output, (exec hash (.reserve reservation) database).1 ≠ .ok (some output)) ∨
    ∃ primary, database.records.primary reservation.output.value.outputId = some primary ∧
      (exec hash (.reserve reservation) database).1 = .ok (some (reservation.next hash primary.value)) ∧
      Stored (reservation.next hash primary.value) reservation.transactionStatus database.records
        (exec hash (.reserve reservation) database).2.records := by
  rcases reserve_cases hash reservation database with committed | ⟨reply, nothing, result⟩
  · obtain ⟨primary, entity, deletes, puts, stored, -, -, deleted, filled, result⟩ := committed
    refine .inr ⟨primary, stored, by rw [result], ?_⟩
    have same : (reservation.next hash primary.value).outputId = reservation.output.value.outputId := by
      rw [Reservation.next_outputId, keyed _ _ stored]
    have indexes : ∀ write ∈ deletes, ∃ key, write.key = .index key := fun _ => indexDeletes_key deleted
    rw [result, Reservation.commit]
    apply stored_of_writes true deletes
    · rw [same, stored]
      exact deleted
    · exact filled
    · rw [same, Records.primary, AList.lookup_insert_ne (by simp), AList.lookup_insert]
      rfl
    · intro outputId other
      have different : StorageKey.outputPrimary outputId ≠ .outputPrimary reservation.output.value.outputId := by
        rw [same] at other
        simpa using other
      rw [Records.primary, AList.lookup_insert_ne (by simp), AList.lookup_insert_ne different,
        applyWrites_lookup_noIndex indexes (by simp)]
    · intro key
      rw [Records.row, AList.lookup_insert_ne (by simp), AList.lookup_insert_ne (by simp),
        applyWrites_lookup_noIndex indexes (by simp)]
    · intro key
      rw [Records.entry, AList.lookup_insert_ne (by simp), AList.lookup_insert_ne (by simp)]
  · rw [result]
    exact .inl ⟨rfl, nothing⟩

end WalletToolbox

import WalletToolbox.Proofs.KeyOrder
import WalletToolbox.Proofs.ReservedOutputs

/-! The count of the spendable outputs of a basket by the status of their transactions.
It counts the keys of the status index and reads no record, so it is right as long as
those keys are exact. Storing an output keeps them exact, and so does a reservation
under a status. A delete and the other reservations leave the key of the status the
output is filed under behind. -/

namespace WalletToolbox
open Effects Async List

/-- The stored outputs, each once. -/
def storedOutputs (records : Records) : List TableOutput :=
  records.primaryIds.filterMap fun outputId => (records.primary outputId).map Versioned.value

def SpendableIn (filed : Nat → Option TransactionStatus) (userId basketId : Nat) (statuses : List TransactionStatus)
    (output : TableOutput) : Prop :=
  output.userId = userId ∧ output.basketId = some basketId ∧ output.spendable = true ∧
    ∃ status ∈ statuses, filed output.outputId = some status

instance (filed : Nat → Option TransactionStatus) (userId basketId : Nat) (statuses : List TransactionStatus) (output : TableOutput) :
    Decidable (SpendableIn filed userId basketId statuses output) := inferInstanceAs (Decidable (_ ∧ _))

theorem primaryIds_nodup (records : Records) : records.primaryIds.Nodup := by
  refine List.Nodup.filterMap ?_ records.keys_nodup
  intro first second outputId one two
  cases first <;> cases second <;> simp_all

theorem primaryIds_stored {records : Records} (listed : outputId ∈ records.primaryIds) :
    ∃ record, records.primary outputId = some record := by
  obtain ⟨key, member, shape⟩ := mem_filterMap.mp listed
  cases key with
  | outputPrimary id =>
    cases shape
    exact Option.isSome_iff_exists.mp (AList.lookup_isSome.mpr (AList.mem_keys.mpr member))
  | counter | entity | index => cases shape

theorem storedOutputs_ids (keyed : Keyed records) :
    (storedOutputs records).map TableOutput.outputId = records.primaryIds := by
  have each (ids : List Nat) (stored : ∀ outputId ∈ ids, ∃ record, records.primary outputId = some record) :
      (ids.filterMap fun outputId => (records.primary outputId).map Versioned.value).map TableOutput.outputId = ids := by
    induction ids with
    | nil => rfl
    | cons outputId rest ih =>
      obtain ⟨record, found⟩ := stored outputId (.head _)
      have later := ih fun other member => stored other (.tail _ member)
      simp only [filterMap_cons, found, Option.map_some, map_cons, later, keyed outputId record found]
  exact each _ fun outputId listed => primaryIds_stored listed

theorem mem_storedOutputs :
    output ∈ storedOutputs records ↔ ∃ outputId record, records.primary outputId = some record ∧ record.value = output := by
  constructor
  · intro listed
    obtain ⟨outputId, -, found⟩ := mem_filterMap.mp listed
    obtain ⟨record, found, same⟩ := Option.map_eq_some_iff.mp found
    exact ⟨outputId, record, found, same⟩
  · rintro ⟨outputId, record, found, rfl⟩
    refine mem_filterMap.mpr ⟨outputId, mem_primaryIds found, ?_⟩
    rw [found]
    rfl

section
variable {filed : Nat → Option TransactionStatus} {records : Records} (indexes : FiledIndexes filed records) {userId basketId : Nat}
  {status : TransactionStatus}
include indexes

theorem FiledIndexes.of_statusEntry
    (member : entry ∈ rangeEntries { keyPrefix := .basketStatus userId basketId status.text } records) :
    ∃ primary, records.primary entry.2.value.outputId = some primary ∧ SpendableIn filed userId basketId [status] primary.value ∧
      entry.1 = .spendableBasketStatusValue userId basketId status.text primary.value.satoshis.toNat entry.2.value.outputId := by
  obtain ⟨contained, found⟩ := mem_rangeEntries.mp member
  have shape : ∃ satoshis outputId, entry.1 = .spendableBasketStatusValue userId basketId status.text satoshis outputId := by
    cases key : entry.1 <;> simp_all [IndexRange.contains, IndexPrefix.starts, IndexBounds.contains]
  obtain ⟨satoshis, outputId, shape⟩ := shape
  have owns : entry.1.owner = some outputId := by
    rw [shape]
    rfl
  obtain ⟨primary, stored, inKeys⟩ := indexes.entry_owner found owns
  have own := indexes.keyed _ _ stored
  rw [shape] at inKeys
  obtain ⟨basket, filedAs, spendable, based, same, key⟩ := statusKeysOf_shape (keysOf_family inKeys)
  injection key with sameUser sameBasket text sameSatoshis sameId
  have sameStatus := text_injective text
  subst sameStatus
  refine ⟨primary, stored, ⟨sameUser.symm, sameBasket ▸ based, spendable, status, mem_singleton_self _, own ▸ same⟩, ?_⟩
  rw [shape, sameSatoshis, ← own, sameId]

theorem FiledIndexes.statusEntry (stored : records.primary outputId = some primary)
    (spendable : SpendableIn filed userId basketId [status] primary.value) :
    ∃ entry ∈ rangeEntries { keyPrefix := .basketStatus userId basketId status.text } records, entry.2.value.outputId = outputId := by
  obtain ⟨user, basket, unspent, filedAs, member, same⟩ := spendable
  have sameStatus := mem_singleton.mp member
  subst sameStatus
  have own := indexes.keyed _ _ stored
  let key : IndexKey := .spendableBasketStatusValue userId basketId filedAs.text primary.value.satoshis.toNat outputId
  have inKeys : key ∈ keysOf primary.value (filed outputId) := by
    apply statusKeysOf_subset
    rw [← own, same]
    simp [statusKeysOf, unspent, basket, key, user, own]
  obtain ⟨record, found⟩ := Option.isSome_iff_exists.mp ((indexes.exact key outputId rfl).mpr ⟨primary, stored, inKeys⟩)
  refine ⟨(key, record), mem_rangeEntries.mpr ⟨?_, found⟩, (indexes.owned key record found outputId rfl).symm⟩
  simp [key, IndexRange.contains, IndexPrefix.starts, IndexBounds.contains]

theorem FiledIndexes.count_status :
    (rangeEntries { keyPrefix := .basketStatus userId basketId status.text } records).length =
      (storedOutputs records).countP (SpendableIn filed userId basketId [status]) := by
  let entries := rangeEntries { keyPrefix := .basketStatus userId basketId status.text } records
  let matching := (storedOutputs records).filter (SpendableIn filed userId basketId [status])
  have entryIds : (entries.map fun entry => entry.2.value.outputId).Nodup := by
    refine List.Nodup.map_on ?_ (List.Nodup.of_map _ (rangeEntries_nodup _ _))
    intro first one second two same
    obtain ⟨primary, stored, -, shape⟩ := indexes.of_statusEntry one
    obtain ⟨other, held, -, otherShape⟩ := indexes.of_statusEntry two
    rw [← same, stored] at held
    cases held
    have sameKey : first.1 = second.1 := by rw [shape, otherShape, same]
    have found := (mem_rangeEntries.mp one).2
    rw [sameKey, (mem_rangeEntries.mp two).2] at found
    exact Prod.ext sameKey (Option.some.inj found).symm
  have matchingIds : (matching.map TableOutput.outputId).Nodup := by
    have all : ((storedOutputs records).map TableOutput.outputId).Nodup := by
      rw [storedOutputs_ids indexes.keyed]
      exact primaryIds_nodup records
    exact (filter_sublist.map TableOutput.outputId).nodup all
  have same : (entries.map fun entry => entry.2.value.outputId).Perm (matching.map TableOutput.outputId) := by
    refine (perm_ext_iff_of_nodup entryIds matchingIds).mpr fun outputId => ?_
    constructor
    · intro listed
      obtain ⟨entry, member, rfl⟩ := mem_map.mp listed
      obtain ⟨primary, stored, spendable, -⟩ := indexes.of_statusEntry member
      refine mem_map.mpr ⟨primary.value, mem_filter.mpr ⟨?_, decide_eq_true spendable⟩, indexes.keyed _ _ stored⟩
      exact mem_storedOutputs.mpr ⟨_, primary, stored, rfl⟩
    · intro listed
      obtain ⟨output, member, rfl⟩ := mem_map.mp listed
      obtain ⟨member, spendable⟩ := mem_filter.mp member
      obtain ⟨outputId, primary, stored, rfl⟩ := mem_storedOutputs.mp member
      obtain ⟨entry, inRange, names⟩ := indexes.statusEntry stored (of_decide_eq_true spendable)
      exact mem_map.mpr ⟨entry, inRange, names.trans (indexes.keyed _ _ stored).symm⟩
  have lengths := same.length_eq
  simpa [entries, matching, countP_eq_length_filter] using lengths

end

theorem countP_spendableIn (filed : Nat → Option TransactionStatus) (userId basketId : Nat) (new : status ∉ rest) (outputs : List TableOutput) :
    outputs.countP (SpendableIn filed userId basketId (status :: rest)) =
      outputs.countP (SpendableIn filed userId basketId [status]) + outputs.countP (SpendableIn filed userId basketId rest) := by
  induction outputs with
  | nil => rfl
  | cons output more ih =>
    simp only [countP_cons, ih]
    have either : SpendableIn filed userId basketId (status :: rest) output ↔
        SpendableIn filed userId basketId [status] output ∨ SpendableIn filed userId basketId rest output := by
      simp only [SpendableIn, mem_cons, not_mem_nil, or_false, exists_eq_or_imp, exists_eq_left]
      tauto
    have both : ¬(SpendableIn filed userId basketId [status] output ∧ SpendableIn filed userId basketId rest output) := by
      rintro ⟨⟨-, -, -, first, one, filedFirst⟩, -, -, -, second, two, filedSecond⟩
      rw [mem_singleton.mp one] at filedFirst
      rw [filedFirst] at filedSecond
      exact new (Option.some.inj filedSecond ▸ two)
    by_cases first : SpendableIn filed userId basketId [status] output
    · have second : ¬SpendableIn filed userId basketId rest output := fun second => both ⟨first, second⟩
      simp only [either, first, second, or_false, decide_true, decide_false, if_true, Bool.false_eq_true, if_false]
      omega
    · by_cases second : SpendableIn filed userId basketId rest output
      · simp only [either, first, second, or_true, decide_true, decide_false, if_true, Bool.false_eq_true, if_false]
        omega
      · simp only [either, first, second, or_self, decide_false, Bool.false_eq_true, if_false]
        omega

theorem padNumber_safe {value : Nat} (safe : (value : Int) ≤ maxSafeInteger) : padNumber value = .ok value := by
  unfold padNumber
  rw [if_pos ⟨by omega, safe⟩]
  rfl

theorem countByTransactionStatus_run (hash)
    (indexes : FiledIndexes filed database.records) {userId basketId : Nat} (user : (userId : Int) ≤ maxSafeInteger)
    (basket : (basketId : Int) ≤ maxSafeInteger) (distinct : statuses.Nodup) :
    (RocksDbWalletStore.countSpendableOutputsByTransactionStatus userId basketId statuses).run (exec hash) database =
      (.ok ((storedOutputs database.records).countP (SpendableIn filed userId basketId statuses)), database) := by
  induction statuses with
  | nil =>
    have none : (storedOutputs database.records).countP (SpendableIn filed userId basketId []) = 0 := by
      refine countP_eq_zero.mpr fun output _ => ?_
      simp [SpendableIn]
    rw [none]
    rfl
  | cons status rest ih =>
    obtain ⟨new, later⟩ := nodup_cons.mp distinct
    have built : outputSpendableBasketStatusPrefix userId basketId status.text = .ok (.basketStatus userId basketId status.text) := by
      unfold outputSpendableBasketStatusPrefix
      rw [padNumber_safe user, padNumber_safe basket, normalizeIndexPart_text]
      rfl
    unfold RocksDbWalletStore.countSpendableOutputsByTransactionStatus
    rw [built, Program.ofExcept_ok_bind]
    show Program.run (exec hash) (RocksDbWalletStore.countSpendableOutputsByTransactionStatus userId basketId rest >>= _) database = _
    rw [Program.run_bind, ih later, countP_spendableIn filed userId basketId new, ← indexes.count_status]
    rfl

end WalletToolbox

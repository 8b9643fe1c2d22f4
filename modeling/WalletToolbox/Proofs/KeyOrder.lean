import WalletToolbox.Proofs.StatusReindex

/-! The order in which a range is visited. A key under a prefix is given by its position,
so the keys of a range have one order only, whatever the order they were stored in. -/

namespace WalletToolbox
open IndexKey

def IndexPrefix.keyAt : IndexPrefix → Nat × Nat → IndexKey
  | .scriptHash hash, position => .scriptHash hash position.2
  | .spendableAll userId, position => .spendableUser userId position.2
  | .spendableBasket userId basketId, position => .spendableBasket userId basketId position.2
  | .basketValue userId basketId, position | .basketValueSatoshis userId basketId _, position =>
    .spendableBasketValue userId basketId position.1 position.2
  | .basketStatus userId basketId status, position | .basketStatusSatoshis userId basketId status _, position =>
    .spendableBasketStatusValue userId basketId status position.1 position.2
  | .transaction transactionId, position => .transaction transactionId position.2

theorem IndexPrefix.keyAt_position {keyPrefix : IndexPrefix} {key} (starts : keyPrefix.starts key = true) :
    key = keyPrefix.keyAt key.position := by
  cases keyPrefix <;> cases key <;> simp_all [IndexPrefix.starts, IndexPrefix.keyAt, IndexKey.position]

theorem IndexKey.precedes_iff {first second : IndexKey} : first.precedes second = true ↔
    first.position.1 < second.position.1 ∨ first.position.1 = second.position.1 ∧ first.position.2 ≤ second.position.2 := by
  simp [precedes]

theorem IndexKey.precedes_antisymm {keyPrefix : IndexPrefix} {first second} (one : keyPrefix.starts first = true)
    (two : keyPrefix.starts second = true) (before : first.precedes second = true) (after : second.precedes first = true) :
    first = second := by
  rw [precedes_iff] at before after
  have same : first.position = second.position := Prod.ext (by omega) (by omega)
  rw [IndexPrefix.keyAt_position one, IndexPrefix.keyAt_position two, same]

instance : Std.Total fun first second : IndexKey => first.precedes second = true := ⟨fun first second => by
  simp only [precedes_iff]
  omega⟩

instance : IsTrans IndexKey fun first second => first.precedes second = true := ⟨fun first second third => by
  simp only [precedes_iff]
  omega⟩

def rangeKeys (range : IndexRange) (records : Records) : List IndexKey :=
  (records.keys.filterMap fun key => match key with
    | .index key => if range.contains key then some key else none
    | _ => none).insertionSort fun first second => first.precedes second

def visitedKeys (range : IndexRange) (records : Records) : List IndexKey :=
  if range.reverse then (rangeKeys range records).reverse else rangeKeys range records

section
variable (range : IndexRange) (records : Records)

theorem rangeEntries_eq : rangeEntries range records =
    (visitedKeys range records).filterMap fun key => (records.entry key).map fun record => (key, record) := rfl

theorem rangeKeys_sorted : (rangeKeys range records).Pairwise fun first second => first.precedes second = true :=
  List.pairwise_insertionSort _ _

theorem rangeKeys_nodup : (rangeKeys range records).Nodup := by
  refine (List.perm_insertionSort _ _).nodup_iff.mpr (List.Nodup.filterMap ?_ records.keys_nodup)
  intro first second key one two
  cases first <;> cases second <;> simp_all

end

section
variable {range : IndexRange} {records before after : Records} {key : IndexKey}

theorem mem_rangeKeys : key ∈ rangeKeys range records ↔ range.contains key = true ∧ (records.entry key).isSome = true := by
  have listed := (@List.mem_insertionSort _ (fun first second => first.precedes second) _ _ _).trans (@mem_containedKeys range records key)
  exact listed.trans (and_congr_right' (AList.mem_keys.symm.trans AList.lookup_isSome.symm))

theorem IndexRange.starts_of_contains (contained : range.contains key = true) : range.keyPrefix.starts key = true :=
  (Bool.and_eq_true_iff.mp contained).1

theorem rangeKeys_congr (same : ∀ key, (after.entry key).isSome = (before.entry key).isSome) :
    rangeKeys range after = rangeKeys range before := by
  refine List.Perm.eq_of_pairwise ?_ (rangeKeys_sorted range after) (rangeKeys_sorted range before) ?_
  · intro first second one two
    exact precedes_antisymm (IndexRange.starts_of_contains (mem_rangeKeys.mp one).1)
      (IndexRange.starts_of_contains (mem_rangeKeys.mp two).1)
  · refine (List.perm_ext_iff_of_nodup (rangeKeys_nodup range after) (rangeKeys_nodup range before)).mpr fun key => ?_
    rw [mem_rangeKeys, mem_rangeKeys, same]

theorem rangeEntries_nodup (range) (records) : ((rangeEntries range records).map Prod.fst).Nodup := by
  have entryKeys (keys : List IndexKey) : ((keys.filterMap fun key =>
      (records.entry key).map fun record => (key, record)).map Prod.fst).Sublist keys := by
    induction keys with
    | nil => exact .slnil
    | cons key rest ih =>
      cases found : records.entry key with
      | none => simpa [found] using ih.cons key
      | some record => simpa [found] using ih
  rw [rangeEntries_eq]
  refine (entryKeys _).nodup ?_
  unfold visitedKeys
  split
  · exact List.nodup_reverse.mpr (rangeKeys_nodup range records)
  · exact rangeKeys_nodup range records

end

def Records.named (records : Records) (key : IndexKey) : Option Nat :=
  (records.entry key).map fun record => record.value.outputId

theorem rangeEntries_named (range) (same : ∀ key, after.named key = before.named key) :
    (rangeEntries range after).map (fun entry => (entry.1, entry.2.value.outputId)) =
      (rangeEntries range before).map fun entry => (entry.1, entry.2.value.outputId) := by
  have present (key : IndexKey) : (after.entry key).isSome = (before.entry key).isSome := by
    have sameSome := congrArg Option.isSome (same key)
    simpa [Records.named] using sameSome
  have shape (records : Records) : (rangeEntries range records).map (fun entry => (entry.1, entry.2.value.outputId)) =
      (visitedKeys range records).filterMap fun key => (records.named key).map fun outputId => (key, outputId) := by
    rw [rangeEntries_eq, List.map_filterMap]
    refine List.filterMap_congr fun key _ => ?_
    simp only [Records.named, Option.map_map]
    rfl
  rw [shape, shape, visitedKeys, visitedKeys, rangeKeys_congr present]
  exact List.filterMap_congr fun key _ => by rw [same]

end WalletToolbox

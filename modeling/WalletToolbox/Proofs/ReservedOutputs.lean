import WalletToolbox.Proofs.StatusReindex
import WalletToolbox.Storage.OutputIndexes

/-! What a reservation takes. A scan stops at outputs of the user and basket that are
spendable and that the caller accepts, so a reservation it commits is of one of them.
Which of them its range lets it see follows from the keys, when the keys are exact. -/

namespace WalletToolbox
open Effects Async IndexPrefix

structure Eligible (hash : ScriptHash) (database : Database) (userId basketId : Nat) (predicate : TableOutput → RocksDbM Bool)
    (output : TableOutput) : Prop where
  user : output.userId = userId
  basket : output.basketId = some basketId
  spendable : output.spendable = true
  accepted : ((predicate output).run (exec hash) database).1 = .ok true

/-- A program that returns an output has reserved a candidate, under the status it names,
and returns the row it stores. Otherwise it leaves the database as it is. -/
def ReservesOne (hash : ScriptHash) (database : Database) (candidate : TableOutput → Option TransactionStatus → Prop)
    (program : RocksDbM (Option TableOutput)) : Prop :=
  program.Ends (exec hash) database fun outcome after => (after = database ∧ ∀ output, outcome ≠ .ok (some output)) ∨
    ∃ (reservation : Reservation) (primary : Versioned TableOutput),
      database.records.primary reservation.output.value.outputId = some primary ∧
      candidate primary.value reservation.transactionStatus ∧
      outcome = .ok (some (reservation.next hash primary.value)) ∧
      Stored (reservation.next hash primary.value) reservation.transactionStatus database.records after.records

section
variable {hash : ScriptHash} {database : Database} {candidate weaker : TableOutput → Option TransactionStatus → Prop}

theorem ReservesOne.none : ReservesOne hash database candidate (pure none) := .inl ⟨rfl, fun _ same => by cases same⟩

theorem ReservesOne.mono (reserves : ReservesOne hash database candidate program)
    (implies : ∀ outputId primary status, database.records.primary outputId = some primary → candidate primary.value status →
      weaker primary.value status) : ReservesOne hash database weaker program := by
  refine Program.Ends.mono reserves fun outcome after ends => ?_
  rcases ends with unchanged | ⟨reservation, primary, found, chosen, returned, stored⟩
  · exact .inl unchanged
  · exact .inr ⟨reservation, primary, found, implies _ _ _ found chosen, returned, stored⟩

theorem ReservesOne.firstSome (left : ReservesOne hash database candidate first)
    (right : ReservesOne hash database candidate second) : ReservesOne hash database candidate (.firstSome first second) := by
  refine Program.Ends.bind (Program.Ends.mono left fun outcome after ends => ?_)
  rcases ends with ⟨rfl, nothing⟩ | ⟨reservation, primary, found, chosen, rfl, stored⟩
  · match outcome with
    | .ok (some output) => exact (nothing output rfl).elim
    | .ok .none => exact right
    | .error error => exact .inl ⟨rfl, fun _ same => by cases same⟩
  · exact .inr ⟨reservation, primary, found, chosen, rfl, stored⟩

theorem ReservesOne.after {program : RocksDbM α} {next} (uses : program.Uses Reads)
    (rest : ∀ value, (program.run (exec hash) database).1 = .ok value → ReservesOne hash database candidate (next value)) :
    ReservesOne hash database candidate (program >>= next) :=
  Program.Ends.after uses Reads.unchanged rest fun _ => .inl ⟨rfl, fun _ same => by cases same⟩

end

namespace RocksDbWalletStore
variable {hash : ScriptHash} {database : Database} {userId basketId transactionId : Nat} {predicate : TableOutput → RocksDbM Bool}
  {candidate : TableOutput → Option TransactionStatus → Prop} {status : Option TransactionStatus} (keyed : Keyed database.records)

include keyed in
theorem tryReserve_reserves {record : Versioned TableOutput} (stored : database.records.primary record.value.outputId = some record)
    (chosen : candidate record.value status) :
    ReservesOne hash database candidate (tryReserveSpendableOutput record userId basketId transactionId status) := by
  refine ReservesOne.after (Program.Uses.ofExcept _) fun _ _ => ?_
  let reservation : Reservation := { output := record, userId, basketId, transactionId, transactionStatus := status }
  unfold ReservesOne Program.Ends
  rw [Program.run_bind, db, Program.run_await, Program.run_done]
  dsimp only
  rw [Program.run_ofExcept]
  rcases reserve_stored hash reservation database keyed with unchanged | ⟨primary, found, reply, reserved⟩
  · exact .inl unchanged
  · have same := Option.some.inj (found.symm.trans stored)
    subst same
    exact .inr ⟨reservation, primary, found, chosen, reply, reserved⟩

def Offers (hash : ScriptHash) (database : Database) (userId basketId : Nat) (predicate : TableOutput → RocksDbM Bool)
    (candidate : TableOutput → Option TransactionStatus → Prop) (status : Option TransactionStatus) (outputId : Nat) : Prop :=
  ∀ primary, database.records.primary outputId = some primary →
    Eligible hash database userId basketId predicate primary.value → candidate primary.value status

variable (predicateReads : ∀ output, (predicate output).Uses Reads)
include keyed predicateReads

theorem reserveIndexEntry_reserves {outputId : Nat}
    (offers : Offers hash database userId basketId predicate candidate status outputId) :
    ReservesOne hash database candidate (reserveIndexEntry userId basketId predicate transactionId status outputId) := by
  refine ReservesOne.after (getPrimary_uses outputId) fun record read => ?_
  have found := getPrimary_found read
  cases record with
  | none => exact ReservesOne.none
  | some record =>
    have stored : database.records.primary record.value.outputId = some record := by
      rw [keyed outputId record found.symm]
      exact found.symm
    dsimp only
    split
    · next fits =>
      refine ReservesOne.after (predicateReads _) fun accepted decided => ?_
      split
      · next yes =>
        obtain ⟨user, basket, spendable⟩ := fits
        exact tryReserve_reserves keyed stored (offers record found.symm ⟨user, basket, spendable, yes ▸ decided⟩)
      · exact ReservesOne.none
    · exact ReservesOne.none

theorem reserveFirstOfEntries_reserves (entries : List (IndexKey × Versioned OutputIndexRecord))
    (offers : ∀ entry ∈ entries, Offers hash database userId basketId predicate candidate status entry.2.value.outputId) :
    ReservesOne hash database candidate (reserveFirstOfEntries userId basketId predicate transactionId status entries) := by
  induction entries with
  | nil => exact ReservesOne.none
  | cons entry rest ih =>
    exact (reserveIndexEntry_reserves keyed predicateReads (offers entry (.head _))).firstSome
      (ih fun other member => offers other (.tail _ member))

theorem reserveFromIndexRange_reserves {range : IndexRange} (offers : ∀ entry ∈ rangeEntries range database.records,
      Offers hash database userId basketId predicate candidate status entry.2.value.outputId) :
    ReservesOne hash database candidate
      (reserveFirstSpendableOutputFromIndexRange userId basketId predicate transactionId range status) := by
  refine ReservesOne.after ⟨trivial, fun _ => trivial⟩ fun entries read => ?_
  have same := (Except.ok.inj read).symm
  subst same
  exact reserveFirstOfEntries_reserves keyed predicateReads _ offers

theorem reserveFirstOfRanges_reserves (ranges : List IndexRange) (offers : ∀ range ∈ ranges, ∀ entry ∈ rangeEntries range database.records,
      Offers hash database userId basketId predicate candidate status entry.2.value.outputId) :
    ReservesOne hash database candidate (reserveFirstOfRanges userId basketId predicate transactionId status ranges) := by
  induction ranges with
  | nil => exact ReservesOne.none
  | cons range rest ih =>
    exact (reserveFromIndexRange_reserves keyed predicateReads (offers range (.head _))).firstSome
      (ih fun other member => offers other (.tail _ member))

end RocksDbWalletStore

/-- The keys that name an output are exactly the keys of the stored outputs, each under
the status its output is filed with. An outpoint names no output. -/
structure FiledIndexes (filed : Nat → Option TransactionStatus) (records : Records) : Prop where
  keyed : Keyed records
  encodable : ∀ outputId record, records.primary outputId = some record → Encodable record.value
  owned : ∀ key record, records.entry key = some record → ∀ owner, key.owner = some owner → owner = record.value.outputId
  exact : ∀ key owner, key.owner = some owner → ((records.entry key).isSome = true ↔
    ∃ record, records.primary owner = some record ∧ key ∈ keysOf record.value (filed owner))

theorem FiledIndexes.entry_owner (indexes : FiledIndexes filed records) (found : records.entry key = some record)
    (owns : key.owner = some owner) : ∃ primary, records.primary record.value.outputId = some primary ∧
      key ∈ keysOf primary.value (filed record.value.outputId) := by
  have present : (records.entry key).isSome = true := by rw [found]; rfl
  have points := indexes.owned key record found owner owns
  subst points
  exact (indexes.exact key _ owns).mp present

structure FamilyIndexes (family : IndexKey → Prop) (filed : Nat → Option TransactionStatus) (records : Records) : Prop where
  keyed : Keyed records
  encodable : ∀ outputId record, records.primary outputId = some record → Encodable record.value
  owned : ∀ key record, family key → records.entry key = some record → ∀ owner, key.owner = some owner → owner = record.value.outputId
  exact : ∀ key owner, family key → key.owner = some owner → ((records.entry key).isSome = true ↔
    ∃ record, records.primary owner = some record ∧ key ∈ keysOf record.value (filed owner))

theorem FiledIndexes.family_iff :
    FiledIndexes filed records ↔ FamilyIndexes (fun _ => True) filed records := by
  constructor
  · intro indexes
    exact ⟨indexes.keyed, indexes.encodable, fun key record _ => indexes.owned key record, fun key owner _ => indexes.exact key owner⟩
  · intro indexes
    exact ⟨indexes.keyed, indexes.encodable, fun key record => indexes.owned key record trivial, fun key owner => indexes.exact key owner trivial⟩

section
variable {family : IndexKey → Prop} {filed later : Nat → Option TransactionStatus} {before after : Records}

theorem FamilyIndexes.frame (indexes : FamilyIndexes family filed before)
    (primary : ∀ outputId, after.primary outputId = before.primary outputId)
    (entry : ∀ key, family key → after.entry key = before.entry key) : FamilyIndexes family filed after where
  keyed := fun outputId record found => indexes.keyed outputId record (primary outputId ▸ found)
  encodable := fun outputId record found => indexes.encodable outputId record (primary outputId ▸ found)
  owned := fun key record inFamily found => indexes.owned key record inFamily (entry key inFamily ▸ found)
  exact := by
    intro key owner inFamily owns
    rw [entry key inFamily, primary owner]
    exact indexes.exact key owner inFamily owns

theorem Stored.familyIndexes (stored : Stored next status before after)
    (indexes : FamilyIndexes family filed before) (others : ∀ outputId, outputId ≠ next.outputId → later outputId = filed outputId)
    (filedAs : ∀ key, family key → (key ∈ keysOf next (later next.outputId) ↔ key ∈ keysOf next status))
    (replaced : ∀ old, before.primary next.outputId = some old → ∀ key, family key →
      (key ∈ keysOf old.value (filed next.outputId) ↔ key ∈ keysOf old.value status)) :
    FamilyIndexes family later after := by
  obtain ⟨version, primary⟩ := stored.primary
  have here := @stored.value
  constructor
  · exact stored.records (fun id output => output.outputId = id) rfl indexes.keyed
  · exact stored.records (fun _ => Encodable) stored.encodable indexes.encodable
  · intro key record inFamily found owner owns
    rcases stored.owned key record found with earlier | ⟨member, points⟩
    · exact indexes.owned key record inFamily earlier owner owns
    · rw [points]
      exact keysOf_owned owns member
  · intro key owner inFamily owns
    rw [stored.entries key]
    by_cases same : owner = next.outputId
    · subst same
      constructor
      · intro present
        refine ⟨_, primary, (filedAs key inFamily).mpr ?_⟩
        rcases present with member | ⟨present, gone⟩
        · exact member
        · obtain ⟨old, found, member⟩ := (indexes.exact key _ inFamily owns).mp present
          exact (gone old found ((replaced old found key inFamily).mp member)).elim
      · rintro ⟨record, found, member⟩
        rw [here found] at member
        exact .inl ((filedAs key inFamily).mp member)
    · rw [stored.others owner same, others owner same, ← indexes.exact key owner inFamily owns]
      constructor
      · intro present
        rcases present with member | ⟨present, -⟩
        · exact (same (keysOf_owned owns member)).elim
        · exact present
      · intro present
        refine .inr ⟨present, fun old found member => same ?_⟩
        rw [← indexes.keyed _ _ found]
        exact keysOf_owned owns member

end

theorem Consistent.filedIndexes (consistent : Consistent status records) :
    FiledIndexes (fun outputId => (records.primary outputId).bind fun record => status record.value) records where
  keyed := consistent.keyed
  encodable := consistent.encodable
  owned := consistent.owned
  exact := by
    intro key owner owns
    rw [consistent.exact key]
    constructor
    · rintro ⟨outputId, record, found, member⟩
      have same : outputId = owner := by
        rcases keysOf_owner member with own | outpoint
        · rw [← consistent.keyed outputId record found]
          exact Option.some.inj (own.symm.trans owns)
        · rw [outpointKeysOf_owner outpoint] at owns
          cases owns
      subst same
      refine ⟨record, found, ?_⟩
      simpa [found] using member
    · rintro ⟨record, found, member⟩
      refine ⟨owner, record, found, ?_⟩
      simpa [found] using member

def StatusRange (status : TransactionStatus) (range : IndexRange) : Prop :=
  ∀ key, range.contains key = true →
    ∃ userId basketId satoshis outputId, key = .spendableBasketStatusValue userId basketId status.text satoshis outputId

section
variable {status : TransactionStatus} {userId basketId : Nat} {satoshis : Int} {range : IndexRange} {keyPrefix : IndexPrefix}

theorem statusRange_of_status
    (built : outputSpendableBasketStatusPrefix userId basketId status.text = .ok keyPrefix) :
    StatusRange status { keyPrefix, bounds, reverse } := by
  intro key contained
  obtain ⟨user, -, built⟩ := bind_eq_ok.mp built
  obtain ⟨basket, -, built⟩ := bind_eq_ok.mp built
  rw [normalizeIndexPart_text] at built
  cases built
  cases key <;> simp_all [IndexRange.contains, starts]

theorem statusRange_of_satoshis
    (built : outputSpendableBasketStatusValueSatoshisPrefix userId basketId status.text satoshis = .ok keyPrefix) :
    StatusRange status { keyPrefix, bounds, reverse } := by
  intro key contained
  obtain ⟨user, -, built⟩ := bind_eq_ok.mp built
  obtain ⟨basket, -, built⟩ := bind_eq_ok.mp built
  obtain ⟨text, normal, built⟩ := bind_eq_ok.mp built
  obtain ⟨value, -, built⟩ := bind_eq_ok.mp built
  rw [normalizeIndexPart_text] at normal
  cases normal
  cases built
  cases key <;> simp_all [IndexRange.contains, starts]

theorem spendableStatusValueRange_status {mode}
    (built : spendableStatusValueRange userId basketId status.text mode satoshis = .ok range) : StatusRange status range := by
  obtain ⟨keyPrefix, basketPrefix, built⟩ := bind_eq_ok.mp built
  match mode with
  | .exact =>
    obtain ⟨keyPrefix, satoshisPrefix, built⟩ := bind_eq_ok.mp built
    cases built
    exact statusRange_of_satoshis satoshisPrefix
  | .over | .under =>
    obtain ⟨value, -, built⟩ := bind_eq_ok.mp built
    cases built
    exact statusRange_of_status basketPrefix

theorem seededBucketRanges_status
    (built : spendableStatusValueSeededBucketRanges userId basketId status.text satoshis seed reverse = .ok ranges) :
    ∀ range ∈ ranges, StatusRange status range := by
  obtain ⟨keyPrefix, satoshisPrefix, built⟩ := bind_eq_ok.mp built
  obtain ⟨seed, -, built⟩ := bind_eq_ok.mp built
  intro range member
  split at built
  · cases built
    simp only [List.mem_cons, List.not_mem_nil, or_false] at member
    rcases member with rfl | rfl <;> exact statusRange_of_satoshis satoshisPrefix
  · cases built
    simp only [List.mem_cons, List.not_mem_nil, or_false] at member
    rcases member with rfl | rfl <;> exact statusRange_of_satoshis satoshisPrefix

end

namespace RocksDbWalletStore
variable {hash : ScriptHash} {database : Database} {userId basketId transactionId : Nat} {predicate : TableOutput → RocksDbM Bool}
  {filed : Nat → Option TransactionStatus} (indexes : FiledIndexes filed database.records)

def FiledCandidate (hash : ScriptHash) (database : Database) (userId basketId : Nat) (predicate : TableOutput → RocksDbM Bool)
    (filed : Nat → Option TransactionStatus) (output : TableOutput) (status : Option TransactionStatus) : Prop :=
  Eligible hash database userId basketId predicate output ∧ filed output.outputId = status ∧ status.isSome = true

include indexes in
theorem statusRange_offers (statusRange : StatusRange status range) :
    ∀ entry ∈ rangeEntries range database.records, Offers hash database userId basketId predicate
      (FiledCandidate hash database userId basketId predicate filed) (some status) entry.2.value.outputId := by
  intro entry member primary stored eligible
  obtain ⟨contained, found⟩ := mem_rangeEntries.mp member
  obtain ⟨user, basket, satoshis, outputId, shape⟩ := statusRange entry.1 contained
  have owns : entry.1.owner = some outputId := by
    rw [shape]
    rfl
  obtain ⟨other, held, inKeys⟩ := indexes.entry_owner found owns
  rw [stored] at held
  cases held
  rw [shape] at inKeys
  obtain ⟨basket, filedAs, -, -, same, key⟩ := statusKeysOf_shape (keysOf_family inKeys)
  injection key with _ _ text
  refine ⟨eligible, ?_, rfl⟩
  rw [indexes.keyed _ _ stored, same, text_injective text]

variable (predicateReads : ∀ output, (predicate output).Uses Reads) (mode : SpendableValueReservationMode) (satoshis : Int)
include predicateReads

theorem reserveOfStatus_offers (keyed : Keyed database.records) {candidate : TableOutput → Option TransactionStatus → Prop} (status : TransactionStatus)
    (offers : ∀ range, StatusRange status range → ∀ entry ∈ rangeEntries range database.records,
      Offers hash database userId basketId predicate candidate (some status) entry.2.value.outputId) :
    ReservesOne hash database candidate (reserveSpendableOutputOfStatus userId basketId predicate transactionId mode satoshis status) := by
  refine ReservesOne.after (Program.Uses.ofExcept _) fun range built => ?_
  rw [Program.run_ofExcept] at built
  refine ReservesOne.after ?_ fun seeded _ => ?_
  · match mode with
    | .exact => trivial
    | .over | .under => exact ⟨trivial, fun _ => trivial⟩
  · refine ReservesOne.firstSome ?_ (reserveFromIndexRange_reserves keyed predicateReads (offers range (spendableStatusValueRange_status built)))
    cases seeded with
    | none => exact ReservesOne.none
    | some seeded =>
      refine ReservesOne.after (bucketSeed_uses status seeded) fun seed _ => ?_
      refine ReservesOne.after (Program.Uses.ofExcept _) fun ranges bucket => ?_
      rw [Program.run_ofExcept] at bucket
      exact reserveFirstOfRanges_reserves keyed predicateReads ranges fun range member =>
        offers range (seededBucketRanges_status bucket range member)

theorem reserveByStatusAndValue_offers (keyed : Keyed database.records)
    (statuses : List TransactionStatus) (offers : ∀ status range, StatusRange status range → ∀ entry ∈ rangeEntries range database.records,
      Offers hash database userId basketId predicate candidate (some status) entry.2.value.outputId) :
    ReservesOne hash database candidate (reserveSpendableOutputByStatusAndValue userId basketId predicate transactionId mode satoshis statuses) := by
  induction statuses with
  | nil => exact ReservesOne.none
  | cons status rest ih => exact (reserveOfStatus_offers predicateReads mode satoshis keyed status (offers status)).firstSome ih

include indexes

theorem reserveByStatusAndValue_reserves (statuses : List TransactionStatus) :
    ReservesOne hash database (FiledCandidate hash database userId basketId predicate filed)
      (reserveSpendableOutputByStatusAndValue userId basketId predicate transactionId mode satoshis statuses) :=
  reserveByStatusAndValue_offers predicateReads mode satoshis indexes.keyed statuses fun _ _ => statusRange_offers indexes

end RocksDbWalletStore

def SpendableValueReservationMode.Admits (mode : SpendableValueReservationMode) (satoshis amount : Int) : Prop :=
  match mode with
  | .exact => amount = satoshis
  | .over => satoshis ≤ amount
  | .under => amount < satoshis

def ValueRange (userId basketId : Nat) (admits : Int → Prop) (range : IndexRange) : Prop :=
  ∀ key, range.contains key = true → ∃ amount outputId, key = .spendableBasketValue userId basketId amount outputId ∧ admits amount

section
variable {userId basketId : Nat} {satoshis : Int} {keyPrefix : IndexPrefix}

theorem valueRange_of_satoshis
    (built : outputSpendableBasketValueSatoshisPrefix userId basketId satoshis = .ok keyPrefix) :
    ValueRange userId basketId (· = satoshis) { keyPrefix, bounds, reverse } := by
  intro key contained
  obtain ⟨user, padded, built⟩ := bind_eq_ok.mp built
  obtain ⟨basket, based, built⟩ := bind_eq_ok.mp built
  obtain ⟨value, valued, built⟩ := bind_eq_ok.mp built
  cases built
  have amount := padNumber_ok valued
  have sameUser := padNumber_natCast padded
  have sameBasket := padNumber_natCast based
  cases key <;> simp_all [IndexRange.contains, starts]

theorem spendableValueRange_values {mode range}
    (built : spendableValueRange userId basketId mode satoshis = .ok range) :
    ValueRange userId basketId (mode.Admits satoshis) range := by
  obtain ⟨keyPrefix, basketPrefix, built⟩ := bind_eq_ok.mp built
  obtain ⟨user, padded, basketPrefix⟩ := bind_eq_ok.mp basketPrefix
  obtain ⟨basket, based, basketPrefix⟩ := bind_eq_ok.mp basketPrefix
  cases basketPrefix
  have sameUser := padNumber_natCast padded
  have sameBasket := padNumber_natCast based
  match mode with
  | .exact =>
    obtain ⟨keyPrefix, satoshisPrefix, built⟩ := bind_eq_ok.mp built
    cases built
    exact valueRange_of_satoshis satoshisPrefix
  | .over | .under =>
    obtain ⟨value, valued, built⟩ := bind_eq_ok.mp built
    cases built
    intro key contained
    have bound := padNumber_ok valued
    subst bound
    cases key <;> simp_all [IndexRange.contains, starts, IndexBounds.contains, IndexKey.position,
      SpendableValueReservationMode.Admits]
    exact of_decide_eq_true contained.2

theorem seededValueRanges_values
    (built : spendableValueSeededBucketRanges userId basketId satoshis seed reverse = .ok ranges) :
    ∀ range ∈ ranges, ValueRange userId basketId (· = satoshis) range := by
  obtain ⟨keyPrefix, satoshisPrefix, built⟩ := bind_eq_ok.mp built
  obtain ⟨seed, -, built⟩ := bind_eq_ok.mp built
  intro range member
  split at built
  · cases built
    simp only [List.mem_cons, List.not_mem_nil, or_false] at member
    rcases member with rfl | rfl <;> exact valueRange_of_satoshis satoshisPrefix
  · cases built
    simp only [List.mem_cons, List.not_mem_nil, or_false] at member
    rcases member with rfl | rfl <;> exact valueRange_of_satoshis satoshisPrefix

end

theorem valueKey_amount {userId basketId amount outputId : Nat}
    (encodable : Encodable output) (member : .spendableBasketValue userId basketId amount outputId ∈ keysOf output status) :
    (amount : Int) = output.satoshis := by
  have listed : .spendableBasketValue userId basketId amount outputId ∈ spendableKeysOf output := by
    simp only [keysOf, List.mem_append, List.mem_singleton] at member
    rcases member with (((member | member) | member) | member) | member
    · unfold scriptHashKeysOf at member
      split at member
      · cases member
      · split at member
        · cases member
        · cases List.mem_singleton.mp member
    · exact member
    · obtain ⟨_, _, -, -, -, shape⟩ := statusKeysOf_shape member
      cases shape
    · have owns := outpointKeysOf_owner member
      cases owns
    · cases member
  unfold spendableKeysOf at listed
  split at listed
  · cases listed
  · cases List.mem_singleton.mp listed
  · next basket spendable based =>
    simp only [List.mem_cons, reduceCtorEq, List.not_mem_nil, or_false, false_or] at listed
    injection listed with _ _ same
    have bounds := encodable_spendable encodable spendable based
    omega

namespace RocksDbWalletStore
variable {hash : ScriptHash} {database : Database} {userId basketId transactionId : Nat} {predicate : TableOutput → RocksDbM Bool}
  {filed : Nat → Option TransactionStatus} (indexes : FiledIndexes filed database.records)

def UnfiledCandidate (hash : ScriptHash) (database : Database) (userId basketId : Nat) (predicate : TableOutput → RocksDbM Bool)
    (admits : Int → Prop) (output : TableOutput) (status : Option TransactionStatus) : Prop :=
  Eligible hash database userId basketId predicate output ∧ admits output.satoshis ∧ status = none

include indexes in
theorem valueRange_offers (values : ValueRange userId basketId admits range) :
    ∀ entry ∈ rangeEntries range database.records, Offers hash database userId basketId predicate
      (UnfiledCandidate hash database userId basketId predicate admits) none entry.2.value.outputId := by
  intro entry member primary stored eligible
  obtain ⟨contained, found⟩ := mem_rangeEntries.mp member
  obtain ⟨amount, outputId, shape, admitted⟩ := values entry.1 contained
  have owns : entry.1.owner = some outputId := by
    rw [shape]
    rfl
  obtain ⟨other, held, inKeys⟩ := indexes.entry_owner found owns
  rw [stored] at held
  cases held
  rw [shape] at inKeys
  have worth := valueKey_amount (indexes.encodable _ _ stored) inKeys
  exact ⟨eligible, worth ▸ admitted, rfl⟩

theorem valueBucketSeed_uses (satoshis : Int) : (spendableValueBucketSeed userId basketId transactionId satoshis).Uses Reads := by
  have first (keyPrefix : IndexPrefix) (reverse : Bool) : (firstSpendableValueOutputIdInBucket keyPrefix reverse).Uses Reads :=
    ⟨trivial, fun _ => trivial⟩
  refine (Program.Uses.ofExcept _).bind fun keyPrefix => (first _ _).bind fun lowest => (first _ _).bind fun highest => ?_
  split
  · split <;> trivial
  · trivial

theorem seededSatoshis_admitted
    (values : ValueRange userId basketId (mode.Admits satoshis) range)
    (ran : ((seededSatoshis mode satoshis range).run (exec hash) database).1 = .ok (some seeded)) : mode.Admits satoshis seeded := by
  have first (found : ((rangeEntries range database.records).head?.bind fun entry => entry.1.satoshis).map Int.ofNat = some seeded) :
      mode.Admits satoshis seeded := by
    obtain ⟨amount, named, rfl⟩ := Option.map_eq_some_iff.mp found
    obtain ⟨entry, head, worth⟩ := Option.bind_eq_some_iff.mp named
    obtain ⟨value, outputId, shape, admitted⟩ := values entry.1 (mem_rangeEntries.mp (List.mem_of_mem_head? head)).1
    rw [shape] at worth
    cases worth
    exact admitted
  match mode with
  | .exact => exact (Option.some.inj (Except.ok.inj ran)).symm
  | .over => exact first (Except.ok.inj ran)
  | .under => exact first (Except.ok.inj ran)

variable (predicateReads : ∀ output, (predicate output).Uses Reads)
include predicateReads

theorem reserveFirst_reserves (keyed : Keyed database.records) :
    ReservesOne hash database (UnfiledCandidate hash database userId basketId predicate fun _ => True)
      (reserveFirstSpendableOutput userId basketId predicate transactionId) := by
  refine ReservesOne.after (Program.Uses.ofExcept _) fun keyPrefix _ => ?_
  refine ReservesOne.after ⟨trivial, fun _ => trivial⟩ fun entries _ => ?_
  exact reserveFirstOfEntries_reserves keyed predicateReads entries fun entry _ primary _ eligible => ⟨eligible, trivial, rfl⟩

include indexes

theorem reserveByValue_reserves (mode : SpendableValueReservationMode) (satoshis : Int) :
    ReservesOne hash database (UnfiledCandidate hash database userId basketId predicate (mode.Admits satoshis))
      (reserveSpendableOutputByValue userId basketId predicate transactionId mode satoshis) := by
  have keyed := indexes.keyed
  refine ReservesOne.after (Program.Uses.ofExcept _) fun range built => ?_
  rw [Program.run_ofExcept] at built
  have values := spendableValueRange_values built
  refine ReservesOne.after ?_ fun seeded ran => ?_
  · match mode with
    | .exact => trivial
    | .over | .under => exact ⟨trivial, fun _ => trivial⟩
  · refine ReservesOne.firstSome ?_ (reserveFromIndexRange_reserves keyed predicateReads (valueRange_offers indexes values))
    cases seeded with
    | none => exact ReservesOne.none
    | some seeded =>
      have admitted := seededSatoshis_admitted values ran
      refine ReservesOne.after (valueBucketSeed_uses seeded) fun seed _ => ?_
      refine ReservesOne.after (Program.Uses.ofExcept _) fun ranges bucket => ?_
      rw [Program.run_ofExcept] at bucket
      refine reserveFirstOfRanges_reserves keyed predicateReads ranges fun range member => ?_
      apply valueRange_offers indexes
      intro key contained
      obtain ⟨amount, outputId, shape, same⟩ := seededValueRanges_values bucket range member key contained
      exact ⟨amount, outputId, shape, same ▸ admitted⟩

end RocksDbWalletStore
end WalletToolbox

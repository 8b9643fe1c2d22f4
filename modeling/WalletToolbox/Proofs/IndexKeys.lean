import WalletToolbox.Proofs.Records

/-! The index keys of an output as a plain list: what `outputIndexKeys` builds whenever
it builds anything. Only the last spendable key depends on the transaction status, and
only an outpoint can belong to two outputs. -/

namespace WalletToolbox
open Effects List

theorem padNumber_toNat (built : padNumber value = .ok number) : number = value.toNat := by
  have := padNumber_ok built
  omega

theorem normalizeIndexPart_ok (built : normalizeIndexPart part = .ok normalized) :
    normalized = trim part := by
  unfold normalizeIndexPart at built
  dsimp only at built
  split at built
  · cases built
  · exact (Except.ok.inj built).symm

theorem normalizeIndexPart_text (status : TransactionStatus) : normalizeIndexPart status.text = .ok status.text := by
  cases status <;> decide +kernel

theorem text_injective {first second : TransactionStatus} (same : first.text = second.text) : first = second := by
  cases first <;> cases second <;> first | rfl | simp [TransactionStatus.text] at same

def scriptHashKeysOf (output : TableOutput) : List IndexKey :=
  match output.scriptHash with
  | none => []
  | some scriptHash => if scriptHash = "" then [] else [.scriptHash (trim scriptHash) output.outputId]

def spendableKeysOf (output : TableOutput) : List IndexKey :=
  match output.spendable, output.basketId with
  | false, _ => []
  | true, none => [.spendableUser output.userId output.outputId]
  | true, some basketId => [.spendableUser output.userId output.outputId, .spendableBasket output.userId basketId output.outputId,
      .spendableBasketValue output.userId basketId output.satoshis.toNat output.outputId]

def statusKeysOf (output : TableOutput) (status : Option TransactionStatus) : List IndexKey :=
  match output.spendable, output.basketId, status with
  | true, some basketId, some status =>
    [.spendableBasketStatusValue output.userId basketId status.text output.satoshis.toNat output.outputId]
  | _, _, _ => []

def outpointKeysOf (output : TableOutput) : List IndexKey :=
  match output.txid with
  | none => []
  | some txid => [.outpoint output.userId (trim txid) output.vout]

def keysOf (output : TableOutput) (status : Option TransactionStatus) : List IndexKey :=
  scriptHashKeysOf output ++ spendableKeysOf output ++ statusKeysOf output status ++ outpointKeysOf output ++
    [.transaction output.transactionId output.outputId]

section
variable {output : TableOutput} {status : Option TransactionStatus} {keys : List IndexKey}

theorem scriptHashIndexKeys_ok (built : scriptHashIndexKeys output = .ok keys) : keys = scriptHashKeysOf output := by
  unfold scriptHashIndexKeys at built
  unfold scriptHashKeysOf
  cases present : output.scriptHash with
  | none =>
    rw [present] at built
    exact (Except.ok.inj built).symm
  | some scriptHash =>
    rw [present] at built
    dsimp only at built ⊢
    split at built
    · next empty => rw [if_pos empty]; exact (Except.ok.inj built).symm
    · next filled =>
      obtain ⟨key, made, built⟩ := bind_eq_ok.mp built
      obtain ⟨part, normal, made⟩ := bind_eq_ok.mp made
      obtain ⟨number, padded, made⟩ := bind_eq_ok.mp made
      obtain rfl := Except.ok.inj built
      obtain rfl := Except.ok.inj made
      rw [if_neg filled, normalizeIndexPart_ok normal, padNumber_natCast padded]

theorem spendableUserKey_ok (made : outputSpendableUserKey userId outputId = .ok key) :
    key = .spendableUser userId outputId := by
  obtain ⟨user, padded, made⟩ := bind_eq_ok.mp made
  obtain ⟨number, numbered, made⟩ := bind_eq_ok.mp made
  obtain rfl := Except.ok.inj made
  rw [padNumber_natCast padded, padNumber_natCast numbered]

theorem spendableBasketKey_ok
    (made : outputSpendableBasketKey userId basketId outputId = .ok key) : key = .spendableBasket userId basketId outputId := by
  obtain ⟨user, padded, made⟩ := bind_eq_ok.mp made
  obtain ⟨basket, based, made⟩ := bind_eq_ok.mp made
  obtain ⟨number, numbered, made⟩ := bind_eq_ok.mp made
  obtain rfl := Except.ok.inj made
  rw [padNumber_natCast padded, padNumber_natCast based, padNumber_natCast numbered]

theorem spendableBasketValueKey_ok
    (made : outputSpendableBasketValueKey userId basketId satoshis outputId = .ok key) :
    key = .spendableBasketValue userId basketId satoshis.toNat outputId := by
  obtain ⟨user, padded, made⟩ := bind_eq_ok.mp made
  obtain ⟨basket, based, made⟩ := bind_eq_ok.mp made
  obtain ⟨value, valued, made⟩ := bind_eq_ok.mp made
  obtain ⟨number, numbered, made⟩ := bind_eq_ok.mp made
  obtain rfl := Except.ok.inj made
  rw [padNumber_natCast padded, padNumber_natCast based, padNumber_toNat valued, padNumber_natCast numbered]

theorem spendableIndexKeys_ok (built : spendableIndexKeys output = .ok keys) : keys = spendableKeysOf output := by
  unfold spendableIndexKeys at built
  unfold spendableKeysOf
  cases spendable : output.spendable with
  | false =>
    rw [spendable] at built
    exact (Except.ok.inj built).symm
  | true =>
    cases based : output.basketId with
    | none =>
      rw [spendable, based] at built
      obtain ⟨user, made, built⟩ := bind_eq_ok.mp built
      obtain rfl := Except.ok.inj built
      rw [spendableUserKey_ok made]
    | some basketId =>
      rw [spendable, based] at built
      obtain ⟨user, madeUser, built⟩ := bind_eq_ok.mp built
      obtain ⟨basket, madeBasket, built⟩ := bind_eq_ok.mp built
      obtain ⟨value, madeValue, built⟩ := bind_eq_ok.mp built
      obtain rfl := Except.ok.inj built
      rw [spendableUserKey_ok madeUser, spendableBasketKey_ok madeBasket, spendableBasketValueKey_ok madeValue]

theorem statusIndexKeys_of_spendable (built : spendableIndexKeys output = .ok keys) :
    statusIndexKeys output status = .ok (statusKeysOf output status) := by
  unfold statusIndexKeys statusKeysOf
  unfold spendableIndexKeys at built
  cases spendable : output.spendable with
  | false => rfl
  | true =>
    cases based : output.basketId with
    | none => rfl
    | some basketId =>
      cases status with
      | none => rfl
      | some status =>
        rw [spendable, based] at built
        obtain ⟨user, madeUser, built⟩ := bind_eq_ok.mp built
        obtain ⟨basket, madeBasket, built⟩ := bind_eq_ok.mp built
        obtain ⟨value, madeValue, built⟩ := bind_eq_ok.mp built
        obtain ⟨userPart, padded, madeValue⟩ := bind_eq_ok.mp madeValue
        obtain ⟨basketPart, basketed, madeValue⟩ := bind_eq_ok.mp madeValue
        obtain ⟨satoshis, valued, madeValue⟩ := bind_eq_ok.mp madeValue
        obtain ⟨number, numbered, madeValue⟩ := bind_eq_ok.mp madeValue
        have made : outputSpendableBasketStatusValueKey output.userId basketId status.text output.satoshis output.outputId =
            .ok (.spendableBasketStatusValue userPart basketPart status.text satoshis number) := by
          unfold outputSpendableBasketStatusValueKey
          rw [padded, basketed, normalizeIndexPart_text, valued, numbered]
          rfl
        dsimp only
        rw [made, padNumber_natCast padded, padNumber_natCast basketed, padNumber_toNat valued, padNumber_natCast numbered]
        rfl

theorem outpointIndexKeys_ok (built : outpointIndexKeys output = .ok keys) : keys = outpointKeysOf output := by
  unfold outpointIndexKeys at built
  unfold outpointKeysOf
  cases present : output.txid with
  | none =>
    rw [present] at built
    exact (Except.ok.inj built).symm
  | some txid =>
    rw [present] at built
    obtain ⟨key, made, built⟩ := bind_eq_ok.mp built
    obtain ⟨user, padded, made⟩ := bind_eq_ok.mp made
    obtain ⟨part, normal, made⟩ := bind_eq_ok.mp made
    obtain ⟨number, numbered, made⟩ := bind_eq_ok.mp made
    obtain rfl := Except.ok.inj built
    obtain rfl := Except.ok.inj made
    rw [padNumber_natCast padded, normalizeIndexPart_ok normal, padNumber_natCast numbered]

theorem outputTransactionKey_ok
    (made : outputTransactionKey transactionId outputId = .ok key) : key = .transaction transactionId outputId := by
  obtain ⟨transaction, padded, made⟩ := bind_eq_ok.mp made
  obtain ⟨number, numbered, made⟩ := bind_eq_ok.mp made
  obtain rfl := Except.ok.inj made
  rw [padNumber_natCast padded, padNumber_natCast numbered]

theorem outputIndexKeys_ok (built : outputIndexKeys output status = .ok keys) : keys = keysOf output status := by
  obtain ⟨scriptHash, madeScriptHash, built⟩ := bind_eq_ok.mp built
  obtain ⟨spendable, madeSpendable, built⟩ := bind_eq_ok.mp built
  obtain ⟨statusKeys, madeStatus, built⟩ := bind_eq_ok.mp built
  obtain ⟨outpoint, madeOutpoint, built⟩ := bind_eq_ok.mp built
  obtain ⟨transaction, madeTransaction, built⟩ := bind_eq_ok.mp built
  obtain rfl := Except.ok.inj built
  rw [statusIndexKeys_of_spendable madeSpendable] at madeStatus
  rw [keysOf, scriptHashIndexKeys_ok madeScriptHash, spendableIndexKeys_ok madeSpendable, ← Except.ok.inj madeStatus,
    outpointIndexKeys_ok madeOutpoint, outputTransactionKey_ok madeTransaction]

def Encodable (output : TableOutput) : Prop := ∀ status, outputIndexKeys output status = .ok (keysOf output status)

theorem encodable_of_built (built : outputIndexKeys output status = .ok keys) : Encodable output := by
  intro other
  obtain ⟨scriptHash, madeScriptHash, built⟩ := bind_eq_ok.mp built
  obtain ⟨spendable, madeSpendable, built⟩ := bind_eq_ok.mp built
  obtain ⟨statusKeys, madeStatus, built⟩ := bind_eq_ok.mp built
  obtain ⟨outpoint, madeOutpoint, built⟩ := bind_eq_ok.mp built
  obtain ⟨transaction, madeTransaction, built⟩ := bind_eq_ok.mp built
  rw [outputIndexKeys, madeScriptHash, madeSpendable, statusIndexKeys_of_spendable madeSpendable, madeOutpoint, madeTransaction,
    keysOf, scriptHashIndexKeys_ok madeScriptHash, spendableIndexKeys_ok madeSpendable, outpointIndexKeys_ok madeOutpoint,
    outputTransactionKey_ok madeTransaction]
  rfl

end

theorem padNumber_bound (built : padNumber value = .ok number) : 0 ≤ value ∧ value ≤ maxSafeInteger := by
  unfold padNumber at built
  split at built
  · next safe => exact safe
  · cases built

theorem encodable_spendable (encodable : Encodable output) (spendable : output.spendable = true)
    (based : output.basketId = some basketId) :
    (output.userId : Int) ≤ maxSafeInteger ∧ (basketId : Int) ≤ maxSafeInteger ∧ 0 ≤ output.satoshis ∧ output.satoshis ≤ maxSafeInteger := by
  obtain ⟨scriptHash, -, built⟩ := bind_eq_ok.mp (encodable none)
  obtain ⟨keys, built, -⟩ := bind_eq_ok.mp built
  unfold spendableIndexKeys at built
  rw [spendable, based] at built
  obtain ⟨userKey, -, built⟩ := bind_eq_ok.mp built
  obtain ⟨basketKey, -, built⟩ := bind_eq_ok.mp built
  obtain ⟨valueKey, made, -⟩ := bind_eq_ok.mp built
  obtain ⟨user, padded, made⟩ := bind_eq_ok.mp made
  obtain ⟨basket, basketed, made⟩ := bind_eq_ok.mp made
  obtain ⟨amount, valued, -⟩ := bind_eq_ok.mp made
  exact ⟨(padNumber_bound padded).2, (padNumber_bound basketed).2, padNumber_bound valued⟩

section
variable {output : TableOutput} {first second : Option TransactionStatus} {key : IndexKey}

theorem mem_keysOf_of_status (member : key ∈ keysOf output first) : key ∈ keysOf output second ∨ key ∈ statusKeysOf output first := by
  simp only [keysOf, mem_append] at member ⊢
  tauto

theorem statusKeysOf_subset (member : key ∈ statusKeysOf output first) : key ∈ keysOf output first := by
  simp only [keysOf, mem_append]
  tauto

theorem statusKeysOf_shape (member : key ∈ statusKeysOf output first) :
    ∃ basketId status, output.spendable = true ∧ output.basketId = some basketId ∧ first = some status ∧
      key = .spendableBasketStatusValue output.userId basketId status.text output.satoshis.toNat output.outputId := by
  unfold statusKeysOf at member
  split at member
  · next basketId status spendable based => exact ⟨basketId, status, spendable, based, rfl, mem_singleton.mp member⟩
  · cases member

def FamilyOf (output : TableOutput) (status : Option TransactionStatus) (key : IndexKey) : Prop :=
  match key with
  | .spendableBasketStatusValue _ _ _ _ _ => key ∈ statusKeysOf output status
  | .outpoint _ _ _ => key ∈ outpointKeysOf output
  | _ => key.owner = some output.outputId

theorem keysOf_family (member : key ∈ keysOf output first) : FamilyOf output first key := by
  simp only [keysOf, mem_append, mem_singleton] at member
  rcases member with (((member | member) | member) | member) | rfl
  · unfold scriptHashKeysOf at member
    split at member
    · cases member
    · split at member
      · cases member
      · rw [mem_singleton.mp member]
        rfl
  · unfold spendableKeysOf at member
    split at member
    · cases member
    · rw [mem_singleton.mp member]
      rfl
    · simp only [mem_cons, not_mem_nil, or_false] at member
      rcases member with rfl | rfl | rfl <;> rfl
  · obtain ⟨basketId, status, -, -, -, rfl⟩ := statusKeysOf_shape member
    exact member
  · have shape : ∃ userId txid vout, key = .outpoint userId txid vout := by
      unfold outpointKeysOf at member
      split at member
      · cases member
      · exact ⟨_, _, _, mem_singleton.mp member⟩
    obtain ⟨userId, txid, vout, rfl⟩ := shape
    exact member
  · rfl

theorem keysOf_owner (member : key ∈ keysOf output first) : key.owner = some output.outputId ∨ key ∈ outpointKeysOf output := by
  have family := keysOf_family member
  cases key with
  | spendableBasketStatusValue =>
    obtain ⟨basketId, status, -, -, -, shape⟩ := statusKeysOf_shape family
    rw [shape]
    exact .inl rfl
  | outpoint => exact .inr family
  | scriptHash | spendableUser | spendableBasket | spendableBasketValue | transaction => exact .inl family

theorem statusKey_filed (member : key ∈ keysOf output first) (shape : key ∈ statusKeysOf output second) :
    key ∈ statusKeysOf output first := by
  obtain ⟨basketId, status, -, -, -, rfl⟩ := statusKeysOf_shape shape
  exact keysOf_family member

theorem outpointKeysOf_subset (member : key ∈ outpointKeysOf output) : key ∈ keysOf output first := by
  simp only [keysOf, mem_append]
  tauto

theorem outpointKeysOf_owner (member : key ∈ outpointKeysOf output) : key.owner = none := by
  unfold outpointKeysOf at member
  split at member
  · cases member
  · rw [mem_singleton.mp member]; rfl

theorem keysOf_owned (owns : key.owner = some owner) (member : key ∈ keysOf output first) : owner = output.outputId := by
  rcases keysOf_owner member with own | outpoint
  · exact Option.some.inj (owns.symm.trans own)
  · rw [outpointKeysOf_owner outpoint] at owns
    cases owns

theorem mem_keysOf_unowned (unowned : key.owner = none) : key ∈ keysOf output first ↔ key ∈ outpointKeysOf output := by
  refine ⟨fun member => ?_, outpointKeysOf_subset⟩
  rcases keysOf_owner member with own | outpoint
  · rw [unowned] at own
    cases own
  · exact outpoint

end
end WalletToolbox

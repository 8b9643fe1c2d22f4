import WalletToolbox.Effects.Fallible
import WalletToolbox.Storage.Partials
import Mathlib.Data.List.AList
import Mathlib.Data.List.Sort

/-! The keys of the store. A key is kept as its parts; building one performs the
checks the rendering performs, in the same order, and fails with the same error.
Index keys of one family compare as their padded numbers do. -/

namespace WalletToolbox
open Effects

inductive WalletError where
  | error (message : String)
  | internal (message : String)
  | invalidOperation (message : String)
  | invalidParameter (parameter mustBe : String)
  | missingParameter (parameter : String)
  | badRequest (message : String)
  | unauthorized
  | insufficientFunds (totalSatoshisNeeded moreSatoshisNeeded : Int)
deriving DecidableEq, Repr

def WalletError.code : WalletError → String
  | error _ => "WERR_UNKNOWN"
  | internal _ => "WERR_INTERNAL"
  | invalidOperation _ => "WERR_INVALID_OPERATION"
  | invalidParameter _ _ => "WERR_INVALID_PARAMETER"
  | missingParameter _ => "WERR_MISSING_PARAMETER"
  | badRequest _ => "WERR_BAD_REQUEST"
  | unauthorized => "WERR_UNAUTHORIZED"
  | insufficientFunds _ _ => "WERR_INSUFFICIENT_FUNDS"

def WalletError.message : WalletError → String
  | error message | internal message | invalidOperation message | badRequest message => message
  | invalidParameter parameter mustBe => "The " ++ parameter ++ " parameter must be " ++ mustBe
  | missingParameter parameter => "The required " ++ parameter ++ " parameter is missing."
  | unauthorized => "Access is denied due to an authorization error."
  | insufficientFunds totalSatoshisNeeded moreSatoshisNeeded =>
    "Insufficient funds in the available inputs to cover the cost of the required outputs and the transaction fee (" ++
      toString moreSatoshisNeeded ++ " more satoshis are needed, for a total of " ++ toString totalSatoshisNeeded ++
      "), plus whatever would be required in order to pay the fee to unlock and spend the outputs used to provide the additional satoshis."

inductive IndexKey where
  | scriptHash (scriptHash : String) (outputId : Nat)
  | spendableUser (userId outputId : Nat)
  | spendableBasket (userId basketId outputId : Nat)
  | spendableBasketValue (userId basketId satoshis outputId : Nat)
  | spendableBasketStatusValue (userId basketId : Nat) (status : String) (satoshis outputId : Nat)
  | outpoint (userId : Nat) (txid : String) (vout : Nat)
  | transaction (transactionId outputId : Nat)
deriving DecidableEq, Repr

inductive StorageKey where
  | counter (table : EntityTable)
  | entity (table : EntityTable) (key : RowKey)
  | outputPrimary (outputId : Nat)
  | index (key : IndexKey)
deriving DecidableEq, Repr

structure OutputIndexRecord where
  outputId : Nat
deriving DecidableEq, Repr

@[reducible] def Value : StorageKey → Type
  | .counter _ => Nat
  | .entity table _ => Row table
  | .outputPrimary _ => TableOutput
  | .index _ => OutputIndexRecord

structure Versioned (α : Type) where
  value : α
  version : Nat
deriving DecidableEq, Repr

abbrev Record (key : StorageKey) := Versioned (Value key)
abbrev Records := AList Record

def maxSafeInteger : Int := 9007199254740991

def padNumber (value : Int) : Except WalletError Nat :=
  if 0 ≤ value ∧ value ≤ maxSafeInteger then .ok value.toNat
  else .error (.error "ROCKSDB_WALLET_STORE_INDEX_NUMBER_INVALID")

def isTrimmed (c : Char) : Bool :=
  [0x9, 0xa, 0xb, 0xc, 0xd, 0x20, 0xa0, 0x1680, 0x2028, 0x2029, 0x202f, 0x205f, 0x3000, 0xfeff].contains c.toNat ||
    (0x2000 ≤ c.toNat && c.toNat ≤ 0x200a)

def trim (value : String) : String :=
  String.ofList ((value.toList.dropWhile isTrimmed).reverse.dropWhile isTrimmed).reverse

def normalizeIndexPart (value : String) : Except WalletError String :=
  let normalized := trim value
  if normalized = "" ∨ '!' ∈ normalized.toList ∨ Char.ofNat 0 ∈ normalized.toList then
    .error (.error "ROCKSDB_WALLET_STORE_INDEX_PART_INVALID")
  else .ok normalized

theorem padNumber_ok (built : padNumber value = .ok number) : (number : Int) = value := by
  unfold padNumber at built
  split at built
  · next safe => cases built; omega
  · cases built

theorem padNumber_natCast {value number : Nat} (built : padNumber value = .ok number) : number = value := by
  have := padNumber_ok built; omega

def outputScriptHashKey (scriptHash : String) (outputId : Nat) : Except WalletError IndexKey := do
  let scriptHash ← normalizeIndexPart scriptHash
  return .scriptHash scriptHash (← padNumber outputId)

def outputSpendableUserKey (userId outputId : Nat) : Except WalletError IndexKey := do
  let userId ← padNumber userId
  return .spendableUser userId (← padNumber outputId)

def outputSpendableBasketKey (userId basketId outputId : Nat) : Except WalletError IndexKey := do
  let userId ← padNumber userId
  let basketId ← padNumber basketId
  return .spendableBasket userId basketId (← padNumber outputId)

def outputSpendableBasketValueKey (userId basketId : Nat) (satoshis : Int) (outputId : Nat) : Except WalletError IndexKey := do
  let userId ← padNumber userId
  let basketId ← padNumber basketId
  let satoshis ← padNumber satoshis
  return .spendableBasketValue userId basketId satoshis (← padNumber outputId)

def outputSpendableBasketStatusValueKey (userId basketId : Nat) (status : String) (satoshis : Int) (outputId : Nat) :
    Except WalletError IndexKey := do
  let userId ← padNumber userId
  let basketId ← padNumber basketId
  let status ← normalizeIndexPart status
  let satoshis ← padNumber satoshis
  return .spendableBasketStatusValue userId basketId status satoshis (← padNumber outputId)

def outputOutpointKey (userId : Nat) (txid : String) (vout : Nat) : Except WalletError IndexKey := do
  let userId ← padNumber userId
  let txid ← normalizeIndexPart txid
  return .outpoint userId txid (← padNumber vout)

def outputTransactionKey (transactionId outputId : Nat) : Except WalletError IndexKey := do
  let transactionId ← padNumber transactionId
  return .transaction transactionId (← padNumber outputId)

inductive IndexPrefix where
  | scriptHash (scriptHash : String)
  | spendableAll (userId : Nat)
  | spendableBasket (userId basketId : Nat)
  | basketValue (userId basketId : Nat)
  | basketValueSatoshis (userId basketId satoshis : Nat)
  | basketStatus (userId basketId : Nat) (status : String)
  | basketStatusSatoshis (userId basketId : Nat) (status : String) (satoshis : Nat)
  | transaction (transactionId : Nat)
deriving DecidableEq, Repr

/-- `key.startsWith(prefix)` -/
def IndexPrefix.starts : IndexPrefix → IndexKey → Bool
  | .scriptHash wanted, .scriptHash hash _ => hash = wanted
  | .spendableAll userId, .spendableUser user _ => user = userId
  | .spendableBasket userId basketId, .spendableBasket user basket _ => user = userId ∧ basket = basketId
  | .basketValue userId basketId, .spendableBasketValue user basket _ _ => user = userId ∧ basket = basketId
  | .basketValueSatoshis userId basketId satoshis, .spendableBasketValue user basket sats _ =>
    user = userId ∧ basket = basketId ∧ sats = satoshis
  | .basketStatus userId basketId status, .spendableBasketStatusValue user basket stat _ _ =>
    user = userId ∧ basket = basketId ∧ stat = status
  | .basketStatusSatoshis userId basketId status satoshis, .spendableBasketStatusValue user basket stat sats _ =>
    user = userId ∧ basket = basketId ∧ stat = status ∧ sats = satoshis
  | .transaction transactionId, .transaction id _ => id = transactionId
  | _, _ => false

/-- The numbers that order the keys under one scanned prefix. -/
def IndexKey.position : IndexKey → Nat × Nat
  | .spendableBasketValue _ _ satoshis outputId => (satoshis, outputId)
  | .spendableBasketStatusValue _ _ _ satoshis outputId => (satoshis, outputId)
  | .scriptHash _ outputId | .spendableUser _ outputId | .spendableBasket _ _ outputId
  | .transaction _ outputId => (0, outputId)
  | .outpoint _ _ vout => (0, vout)

def IndexKey.precedes (first second : IndexKey) : Bool :=
  first.position.1 < second.position.1 ∨
    first.position.1 = second.position.1 ∧ first.position.2 ≤ second.position.2

/-- Which keys under the prefix lie between `start`, inclusive, and `end`, exclusive. -/
inductive IndexBounds where
  | all
  | satoshisFrom (satoshis : Nat)
  /-- From the bare satoshis prefix downwards: its own bucket sorts after it. -/
  | satoshisBelow (satoshis : Nat)
  | outputIdFrom (seed : Nat)
  | outputIdBelow (seed : Nat)
  | outputIdUpTo (seed : Nat)
  | outputIdAbove (seed : Nat)
deriving DecidableEq, Repr

def IndexBounds.contains (bounds : IndexBounds) (key : IndexKey) : Bool :=
  match bounds with
  | .all => true
  | .satoshisFrom satoshis => satoshis ≤ key.position.1
  | .satoshisBelow satoshis => key.position.1 < satoshis
  | .outputIdFrom seed => seed ≤ key.position.2
  | .outputIdBelow seed => key.position.2 < seed
  | .outputIdUpTo seed => key.position.2 ≤ seed
  | .outputIdAbove seed => seed < key.position.2

structure IndexRange where
  keyPrefix : IndexPrefix
  bounds : IndexBounds := .all
  reverse : Bool := false
deriving DecidableEq, Repr

def IndexRange.contains (range : IndexRange) (key : IndexKey) : Bool :=
  range.keyPrefix.starts key && range.bounds.contains key

inductive SpendableValueReservationMode where
  | exact | over | under
deriving DecidableEq, Repr

def outputSpendableBasketPrefix (userId basketId : Nat) : Except WalletError IndexPrefix := do
  let userId ← padNumber userId
  return .spendableBasket userId (← padNumber basketId)

def outputSpendableBasketValuePrefix (userId basketId : Nat) : Except WalletError IndexPrefix := do
  let userId ← padNumber userId
  return .basketValue userId (← padNumber basketId)

def outputSpendableBasketValueSatoshisPrefix (userId basketId : Nat) (satoshis : Int) : Except WalletError IndexPrefix := do
  let userId ← padNumber userId
  let basketId ← padNumber basketId
  return .basketValueSatoshis userId basketId (← padNumber satoshis)

def outputSpendableBasketStatusPrefix (userId basketId : Nat) (status : String) : Except WalletError IndexPrefix := do
  let userId ← padNumber userId
  let basketId ← padNumber basketId
  return .basketStatus userId basketId (← normalizeIndexPart status)

def outputSpendableBasketStatusValueSatoshisPrefix (userId basketId : Nat) (status : String) (satoshis : Int) :
    Except WalletError IndexPrefix := do
  let userId ← padNumber userId
  let basketId ← padNumber basketId
  let status ← normalizeIndexPart status
  return .basketStatusSatoshis userId basketId status (← padNumber satoshis)

def spendableValueRange (userId basketId : Nat) (mode : SpendableValueReservationMode) (satoshis : Int) :
    Except WalletError IndexRange := do
  let basketPrefix ← outputSpendableBasketValuePrefix userId basketId
  match mode with
  | .exact => return { keyPrefix := ← outputSpendableBasketValueSatoshisPrefix userId basketId satoshis }
  | .over => return { keyPrefix := basketPrefix, bounds := .satoshisFrom (← padNumber satoshis) }
  | .under => return { keyPrefix := basketPrefix, bounds := .satoshisBelow (← padNumber satoshis), reverse := true }

def spendableStatusValueRange (userId basketId : Nat) (status : String) (mode : SpendableValueReservationMode)
    (satoshis : Int) : Except WalletError IndexRange := do
  let basketPrefix ← outputSpendableBasketStatusPrefix userId basketId status
  match mode with
  | .exact => return { keyPrefix := ← outputSpendableBasketStatusValueSatoshisPrefix userId basketId status satoshis }
  | .over => return { keyPrefix := basketPrefix, bounds := .satoshisFrom (← padNumber satoshis) }
  | .under => return { keyPrefix := basketPrefix, bounds := .satoshisBelow (← padNumber satoshis), reverse := true }

def spendableValueSeededBucketRanges (userId basketId : Nat) (satoshis seed : Int) (reverse : Bool) :
    Except WalletError (List IndexRange) := do
  let keyPrefix ← outputSpendableBasketValueSatoshisPrefix userId basketId satoshis
  let seed ← padNumber seed
  if reverse then
    return [{ keyPrefix, bounds := .outputIdUpTo seed, reverse }, { keyPrefix, bounds := .outputIdAbove seed, reverse }]
  else
    return [{ keyPrefix, bounds := .outputIdFrom seed }, { keyPrefix, bounds := .outputIdBelow seed }]

def spendableStatusValueSeededBucketRanges (userId basketId : Nat) (status : String) (satoshis seed : Int)
    (reverse : Bool) : Except WalletError (List IndexRange) := do
  let keyPrefix ← outputSpendableBasketStatusValueSatoshisPrefix userId basketId status satoshis
  let seed ← padNumber seed
  if reverse then
    return [{ keyPrefix, bounds := .outputIdUpTo seed, reverse }, { keyPrefix, bounds := .outputIdAbove seed, reverse }]
  else
    return [{ keyPrefix, bounds := .outputIdFrom seed }, { keyPrefix, bounds := .outputIdBelow seed }]

def spendableReservationSeed (transactionId : Int) : Int :=
  if transactionId < 0 ∨ maxSafeInteger < transactionId then 0 else transactionId

def positiveModulo (value divisor : Int) : Int :=
  if divisor ≤ 0 ∨ maxSafeInteger < divisor then 0
  else
    let result := value.tmod divisor
    if result < 0 then result + divisor else result

def IndexKey.satoshis : IndexKey → Option Nat
  | .spendableBasketValue _ _ satoshis _ | .spendableBasketStatusValue _ _ _ satoshis _ => some satoshis
  | _ => none

def IndexKey.outputId : IndexKey → Option Nat
  | .spendableBasketValue _ _ _ outputId | .spendableBasketStatusValue _ _ _ _ outputId => some outputId
  | _ => none

/-- The key belongs to one output alone; only outpoints can be shared. -/
def IndexKey.owner : IndexKey → Option Nat
  | .scriptHash _ outputId | .spendableUser _ outputId | .spendableBasket _ _ outputId
  | .spendableBasketValue _ _ _ outputId | .spendableBasketStatusValue _ _ _ _ outputId
  | .transaction _ outputId => some outputId
  | .outpoint _ _ _ => none

end WalletToolbox

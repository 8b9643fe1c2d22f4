import WalletToolbox.Effects.Fallible
import WalletToolbox.Language.Hex

/-! Transactions and what the signer uses of the SDK: scripts, templates that sign inputs,
and collections of transactions (Beefs). -/

namespace WalletToolbox

abbrev Script := List UInt8

abbrev Bytes := List UInt8

inductive SignerError where
  | invalidParameter (parameter mustBe : String)
  | internal (message : String)
  | notImplemented (message : String)
  | error (message : String)
deriving DecidableEq, Repr

def SignerError.message : SignerError → String
  | .invalidParameter parameter mustBe => "The " ++ parameter ++ " parameter must be " ++ mustBe
  | .internal message | .notImplemented message | .error message => message

/-- `Script.fromHex` -/
def asBsvSdkScript (text : String) : Except SignerError Script :=
  match Hex.decode text with
  | some script => .ok script
  | none => .error (.error "Some elements in this string are not hex encoded.")

def verifyTruthy (text : Option String) : Except SignerError String :=
  match text with
  | none | some "" => .error (.internal "A truthy value is required.")
  | some text => .ok text

/-- `ScriptTemplateBRC29.unlock`: a template that signs an input of the wallet. The wallet's
own public key stands for a missing one. -/
structure UnlockTemplate where
  derivationPrefix : String
  derivationSuffix : String
  unlockerPubKey : Option String
  sourceSatoshis : Nat
  lockingScript : Script
deriving DecidableEq, Repr

structure TransactionInput where
  sourceTXID : String
  sourceOutputIndex : Nat
  sourceTransaction : Option Bytes
  unlockingScript : Option Script
  unlockingScriptTemplate : Option UnlockTemplate := none
  sequence : Nat
deriving DecidableEq, Repr

structure TransactionOutput where
  satoshis : Nat
  lockingScript : Script
  change : Bool
deriving DecidableEq, Repr

structure Transaction where
  version : Nat
  inputs : List TransactionInput
  outputs : List TransactionOutput
  lockTime : Nat
deriving DecidableEq, Repr

structure OtherInput where
  sourceTXID : String
  sourceOutputIndex : Nat
  sequence : Nat
deriving DecidableEq, Repr

structure Spend where
  sourceTXID : String
  sourceOutputIndex : Nat
  lockingScript : Script
  sourceSatoshis : Nat
  transactionVersion : Nat
  otherInputs : List OtherInput
  unlockingScript : Script
  inputSequence : Nat
  inputIndex : Nat
  outputs : List TransactionOutput
  lockTime : Nat
deriving DecidableEq, Repr

/-- The SDK, with the keys of the wallet. -/
structure Sdk where
  Beef : Type
  noTransactions : Beef
  fromBinary : Bytes → Except SignerError Beef
  mergeBeef : Beef → Bytes → Except SignerError Beef
  mergeTransaction : Beef → Transaction → Beef
  mergeRawTx : Beef → Bytes → Except SignerError Beef
  findTx : Beef → String → Option Transaction
  toBinaryAtomic : Beef → String → Except SignerError Bytes
  id : Transaction → String
  toBinary : Transaction → Bytes
  transactionFromBinary : Bytes → Except SignerError Transaction
  validate : Spend → Except SignerError Bool
  lock : (derivationPrefix derivationSuffix : String) → Except SignerError Script
  sign : UnlockTemplate → Transaction → (inputIndex : Nat) → Except SignerError Script

/-- What the documentation says of merging: the transaction is found afterwards. -/
structure Sdk.Lawful (sdk : Sdk) : Prop where
  merged_found : ∀ beef tx, sdk.findTx (sdk.mergeTransaction beef tx) (sdk.id tx) = some tx

namespace Transaction

def signInput (sdk : Sdk) (tx : Transaction) (input : TransactionInput) (vin : Nat) : Except SignerError TransactionInput :=
  match input.unlockingScriptTemplate with
  | none => .ok input
  | some template => do return { input with unlockingScript := some (← sdk.sign template tx vin) }

def sign (sdk : Sdk) (tx : Transaction) : Except SignerError Transaction := do
  let inputs ← tx.inputs.zipIdx.mapM fun (input, vin) => signInput sdk tx input vin
  return { tx with inputs }

def otherInputs (tx : Transaction) (vin : Nat) : List OtherInput :=
  (tx.inputs.eraseIdx vin).map fun input => ⟨input.sourceTXID, input.sourceOutputIndex, input.sequence⟩

end Transaction
end WalletToolbox

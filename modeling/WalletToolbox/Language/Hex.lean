import Mathlib.Data.List.Basic
import Mathlib.Tactic.IntervalCases

/-! Bytes written in hexadecimal digits. -/

namespace WalletToolbox.Hex

def digit (c : Char) : Option Nat :=
  if c.isDigit then some (c.toNat - '0'.toNat)
  else if 'a' ≤ c ∧ c ≤ 'f' then some (c.toNat - 'a'.toNat + 10)
  else if 'A' ≤ c ∧ c ≤ 'F' then some (c.toNat - 'A'.toNat + 10)
  else none

def ofDigits : List Char → Option (List UInt8)
  | [] => some []
  | [_] => none
  | high :: low :: rest => do return UInt8.ofNat (16 * (← digit high) + (← digit low)) :: (← ofDigits rest)

def digitOf (value : Nat) : Char := Nat.digitChar value

def toDigits : List UInt8 → List Char
  | [] => []
  | byte :: rest => digitOf (byte.toNat / 16) :: digitOf (byte.toNat % 16) :: toDigits rest

def encode (bytes : List UInt8) : String := String.ofList (toDigits bytes)

def decode (text : String) : Option (List UInt8) := ofDigits text.toList

theorem ofDigits_length (parsed : ofDigits text = some bytes) :
    text.length = 2 * bytes.length := by
  fun_induction ofDigits text generalizing bytes with
  | case1 =>
    cases parsed
    rfl
  | case2 => cases parsed
  | case3 high low rest ih =>
    simp only [Option.pure_def, Option.bind_eq_bind, Option.bind_eq_some_iff] at parsed
    obtain ⟨_, _, _, _, tail, read, same⟩ := parsed
    cases same
    have shorter := ih read
    simp only [List.length_cons]
    omega

theorem decode_length (parsed : decode text = some bytes) : text.length = 2 * bytes.length :=
  ofDigits_length parsed

theorem digit_digitOf (small : value < 16) : digit (digitOf value) = some value := by
  interval_cases value <;> decide

theorem ofDigits_toDigits (bytes) : ofDigits (toDigits bytes) = some bytes := by
  induction bytes with
  | nil => rfl
  | cons byte rest ih =>
    have high : byte.toNat / 16 < 16 := Nat.div_lt_of_lt_mul byte.toNat_lt
    have low : byte.toNat % 16 < 16 := Nat.mod_lt _ (by decide)
    have whole : 16 * (byte.toNat / 16) + byte.toNat % 16 = byte.toNat := Nat.div_add_mod ..
    rw [toDigits, ofDigits, digit_digitOf high, digit_digitOf low, ih]
    simp only [Option.pure_def, Option.bind_eq_bind, Option.bind_some, whole, UInt8.ofNat_toNat]

theorem decode_encode (bytes) : decode (encode bytes) = some bytes := by
  rw [decode, encode, String.toList_ofList, ofDigits_toDigits]

theorem encode_length (bytes) : (encode bytes).length = 2 * bytes.length := decode_length (decode_encode bytes)

end WalletToolbox.Hex

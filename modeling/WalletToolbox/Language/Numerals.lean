import Mathlib.Algebra.GroupWithZero.Nat

/-! Moduli of the bounded numbers of the model. A literal of such a type finds its modulus here. -/

namespace WalletToolbox

instance three_neZero : NeZero 3 := ⟨Nat.succ_ne_zero 2⟩

instance wordCount_neZero : NeZero 4294967296 := ⟨Nat.succ_ne_zero 4294967295⟩

end WalletToolbox
